import EditorLisp.Primitives.Time
import EditorLisp.Proofs.Number.Fixnum
import Mathlib.Logic.Function.Iterate
import Mathlib.Tactic.IntervalCases

/-!
# The calendar

Every day has a date, and the date of the day after it is the date that follows in the Gregorian
calendar, before the calendar was introduced as well as after that.  The date of a day is found by a
few divisions.  That they find the right one is shown from the other side: a date has a number, which
grows by one from each date to the next, and the divisions find every date from its number.  As the
calendar repeats itself after four hundred years, each number belongs to a date.

Nothing on the way leaves the machine integers, even for the points in time that are farthest away.
-/

namespace EditorLisp.Primitives

open Number

variable {date other : Date} {n : Int} {days : Int64}

/-! ## The Gregorian calendar -/

/-- A year with a leap day. -/
def IsLeap (year : Int) : Prop := 4 ∣ year ∧ (¬100 ∣ year ∨ 400 ∣ year)

instance (year : Int) : Decidable (IsLeap year) := inferInstanceAs (Decidable (_ ∧ _))

/-- The number of days of a month. -/
def monthLength (year : Int) (month : Nat) : Nat :=
  if month = 2 then if IsLeap year then 29 else 28
  else if month ∈ [4, 6, 9, 11] then 30
  else 31

theorem monthLength_bounds (year : Int) (month : Nat) :
    28 ≤ monthLength year month ∧ monthLength year month ≤ 31 := by
  unfold monthLength
  split <;> split <;> omega

theorem monthLength_february (year : Int) :
    monthLength year 2 = if IsLeap year then 29 else 28 := rfl

namespace Date

/-- A date that there is. -/
structure Valid (date : Date) : Prop where
  month_pos : 1 ≤ date.month
  month_le : date.month ≤ 12
  day_pos : 1 ≤ date.day
  day_le : date.day ≤ monthLength date.year date.month

/-- The date of the day after. -/
def next (date : Date) : Date :=
  if date.day < monthLength date.year date.month then { date with day := date.day + 1 }
  else if date.month < 12 then ⟨date.year, date.month + 1, 1⟩
  else ⟨date.year + 1, 1, 1⟩

/-- The date from which days are counted. -/
def start : Date := ⟨1970, 1, 1⟩

/-- A date lies some days after the start, or before it. -/
def LiesAt (date : Date) : Int → Prop
  | .ofNat days => next^[days] start = date
  | .negSucc days => next^[days + 1] date = start

end Date

/-! ## The number of a date -/

/-- The days of whole years, where years are counted from a leap day on. -/
def yearStart (year : Int) : Int := 365 * year + year / 4 - year / 100

/-- The days of whole months, where months are counted from March on. -/
def monthStart (month : Int) : Int := (153 * month + 2) / 5

/-- The months from March to a month. -/
def fromMarch (month : Nat) : Int := if month ≤ 2 then month + 9 else month - 3

/-- The months other than February have the length that the days of whole months give them. -/
theorem monthStart_succ (year : Int) {month : Nat} (positive : 1 ≤ month) (most : month ≤ 12)
    (other : month ≠ 2) :
    monthStart (fromMarch month + 1) = monthStart (fromMarch month) + monthLength year month := by
  interval_cases month <;> first | contradiction | rfl

/-- A year ends with February, which is as long as the days of whole years make it. -/
theorem yearStart_succ (year : Int) :
    yearStart (year + 1) + (year + 1) / 400 =
      yearStart year + year / 400 + monthStart 11 + monthLength (year + 1) 2 := by
  have months : monthStart 11 = 337 := rfl
  rw [monthLength_february, months]
  unfold yearStart
  by_cases leap : IsLeap (year + 1)
  · rw [if_pos leap]
    unfold IsLeap at leap
    omega
  · rw [if_neg leap]
    unfold IsLeap at leap
    omega

namespace Date

/-- The year, where years start in March. -/
def marchYear (date : Date) : Int := if date.month ≤ 2 then date.year - 1 else date.year

/-- The days of that year before a date. -/
def dayOfYear (date : Date) : Int := monthStart (fromMarch date.month) + (date.day - 1)

/-- The number of days from the start to a date. -/
def dayNumber (date : Date) : Int :=
  yearStart date.marchYear + date.marchYear / 400 + date.dayOfYear - 719468

theorem dayNumber_early (year : Int) {month : Nat} (early : month ≤ 2) (day : Nat) :
    dayNumber ⟨year, month, day⟩ =
      yearStart (year - 1) + (year - 1) / 400 + (monthStart (month + 9) + (day - 1)) - 719468 := by
  simp only [dayNumber, dayOfYear, marchYear, fromMarch, if_pos early]

theorem dayNumber_late (year : Int) {month : Nat} (late : 2 < month) (day : Nat) :
    dayNumber ⟨year, month, day⟩ =
      yearStart year + year / 400 + (monthStart (month - 3) + (day - 1)) - 719468 := by
  simp only [dayNumber, dayOfYear, marchYear, fromMarch, if_neg (Nat.not_le.mpr late)]

theorem Valid.next (valid : date.Valid) : date.next.Valid := by
  obtain ⟨month_pos, month_le, day_pos, day_le⟩ := valid
  unfold Date.next
  split
  next inside => exact ⟨month_pos, month_le, Nat.succ_pos _, inside⟩
  next =>
    have long (year : Int) (month : Nat) : 1 ≤ monthLength year month :=
      Nat.le_trans (by decide) (monthLength_bounds year month).1
    split
    next before => exact ⟨Nat.succ_pos _, before, Nat.le_refl _, long ..⟩
    next => exact ⟨Nat.le_refl _, Nat.le_add_left .., Nat.le_refl _, long ..⟩

/-- The day after the last one of a month other than February and December. -/
theorem dayNumber_monthEnd (year : Int) {month : Nat} (positive : 1 ≤ month) (before : month < 12)
    (other : month ≠ 2) :
    dayNumber ⟨year, month + 1, 1⟩ = dayNumber ⟨year, month, monthLength year month⟩ + 1 := by
  have monthEnd := monthStart_succ year positive (Nat.le_of_lt before) other
  have sameYear : month + 1 ≤ 2 ↔ month ≤ 2 := by omega
  have nextMonth : fromMarch (month + 1) = fromMarch month + 1 := by
    unfold fromMarch
    simp only [sameYear]
    split <;> omega
  simp only [dayNumber, dayOfYear, marchYear, sameYear, nextMonth, monthEnd]
  omega

theorem dayNumber_februaryEnd (year : Int) :
    dayNumber ⟨year, 3, 1⟩ = dayNumber ⟨year, 2, monthLength year 2⟩ + 1 := by
  have yearEnd := yearStart_succ (year - 1)
  rw [Int.sub_add_cancel] at yearEnd
  have first : dayNumber ⟨year, 3, 1⟩ = yearStart year + year / 400 + 0 - 719468 :=
    dayNumber_late year (Nat.lt_succ_self 2) 1
  have last : dayNumber ⟨year, 2, monthLength year 2⟩ =
      yearStart (year - 1) + (year - 1) / 400 + (monthStart 11 + (monthLength year 2 - 1)) -
        719468 :=
    dayNumber_early year (Nat.le_refl 2) _
  rw [first, last]
  omega

theorem dayNumber_yearEnd (year : Int) :
    dayNumber ⟨year + 1, 1, 1⟩ = dayNumber ⟨year, 12, monthLength year 12⟩ + 1 := by
  have monthEnd : monthStart 10 = monthStart 9 + monthLength year 12 :=
    monthStart_succ year (Nat.le_add_left 1 11) (Nat.le_refl 12) (by decide)
  have first : dayNumber ⟨year + 1, 1, 1⟩ =
      yearStart (year + 1 - 1) + (year + 1 - 1) / 400 + (monthStart 10 + 0) - 719468 :=
    dayNumber_early (year + 1) (Nat.le_succ 1) 1
  have last : dayNumber ⟨year, 12, monthLength year 12⟩ =
      yearStart year + year / 400 + (monthStart 9 + (monthLength year 12 - 1)) - 719468 :=
    dayNumber_late year (Nat.le_add_left 3 9) _
  rw [first, last, Int.add_sub_cancel]
  omega

/-- The numbers of dates that follow each other follow each other. -/
theorem Valid.dayNumber_next (valid : date.Valid) : date.next.dayNumber = date.dayNumber + 1 := by
  obtain ⟨month_pos, month_le, day_pos, day_le⟩ := valid
  obtain ⟨year, month, day⟩ := date
  dsimp only at month_pos month_le day_pos day_le
  unfold Date.next
  split
  next inside =>
    simp only [dayNumber, dayOfYear, marchYear]
    omega
  next last =>
    obtain rfl : day = monthLength year month := Nat.le_antisymm day_le (Nat.le_of_not_lt last)
    split
    next before =>
      by_cases february : month = 2
      · subst february
        exact dayNumber_februaryEnd year
      · exact dayNumber_monthEnd year month_pos before february
    next after =>
      obtain rfl : month = 12 := Nat.le_antisymm month_le (Nat.le_of_not_lt after)
      exact dayNumber_yearEnd year

theorem Valid.iterate (valid : date.Valid) (days : Nat) :
    (Date.next^[days] date).Valid ∧ (Date.next^[days] date).dayNumber = date.dayNumber + days := by
  induction days with
  | zero => exact ⟨valid, (Int.add_zero _).symm⟩
  | succ days ih =>
      obtain ⟨valid', number⟩ := ih
      rw [Function.iterate_succ_apply']
      refine ⟨valid'.next, ?_⟩
      rw [valid'.dayNumber_next, number]
      omega

/-- Every number is the number of a date, because after four hundred years it starts all over. -/
theorem exists_dayNumber_eq (n : Int) : ∃ date : Date, date.Valid ∧ date.dayNumber = n := by
  let earlier : Date := ⟨1970 - 400 * n.natAbs, 1, 1⟩
  have valid : earlier.Valid :=
    ⟨Nat.le_refl 1, Nat.le_add_left 1 11, Nat.le_refl 1, Nat.le_add_left 1 30⟩
  have number : earlier.dayNumber = -146097 * n.natAbs := by
    rw [dayNumber_early _ (Nat.le_succ 1)]
    unfold yearStart monthStart
    omega
  obtain ⟨valid, reached⟩ := valid.iterate (n + 146097 * n.natAbs).toNat
  refine ⟨_, valid, reached.trans ?_⟩
  rw [number]
  omega

theorem valid_start : start.Valid :=
  ⟨Nat.le_refl 1, Nat.le_add_left 1 11, Nat.le_refl 1, Nat.le_add_left 1 30⟩

/-- A date lies as many days after the start as its number says. -/
theorem LiesAt.dayNumber_eq (lies : date.LiesAt n) (valid : date.Valid) : date.dayNumber = n := by
  cases n with
  | ofNat days =>
      have reached := (valid_start.iterate days).2
      rw [show next^[days] start = date from lies] at reached
      exact reached.trans (Int.zero_add _)
  | negSucc days =>
      have reached := (valid.iterate (days + 1)).2
      rw [show next^[days + 1] date = start from lies] at reached
      have zero : start.dayNumber = 0 := rfl
      omega

theorem Valid.dayOfYear_bounds (valid : date.Valid) :
    monthStart (fromMarch date.month) ≤ date.dayOfYear ∧
      date.dayOfYear < monthStart (fromMarch date.month + 1) ∧
        (date.dayOfYear < 365 ∨ date.dayOfYear = 365 ∧ IsLeap (date.marchYear + 1)) := by
  obtain ⟨month_pos, month_le, day_pos, day_le⟩ := valid
  obtain ⟨year, month, day⟩ := date
  dsimp only [dayOfYear, marchYear] at *
  by_cases february : month = 2
  · subst february
    have first : monthStart (fromMarch 2) = 337 := rfl
    have beyond : monthStart (fromMarch 2 + 1) = 367 := rfl
    rw [monthLength_february] at day_le
    rw [first, beyond, if_pos (Nat.le_refl 2), Int.sub_add_cancel]
    split at day_le
    next leap =>
      rcases Nat.lt_or_eq_of_le day_le with earlier | rfl
      · exact ⟨by omega, by omega, .inl (by omega)⟩
      · exact ⟨by decide, by decide, .inr ⟨rfl, leap⟩⟩
    next => exact ⟨by omega, by omega, .inl (by omega)⟩
  · have monthEnd := monthStart_succ year month_pos month_le february
    have before : fromMarch month + 1 ≤ 11 := by
      unfold fromMarch
      split <;> omega
    have yearEnd : monthStart (fromMarch month + 1) ≤ 337 := by
      unfold monthStart
      omega
    exact ⟨by omega, by omega, .inl (by omega)⟩

end Date

/-! ## The divisions -/

/-- The year of a day is found among four hundred years. -/
theorem yearOfEra_eq {year k : Int} (nonneg : 0 ≤ year) (below : year < 400) (k_nonneg : 0 ≤ k)
    (inside : k < 365 ∨ k = 365 ∧ IsLeap (year + 1)) {d : Int} (split : d = yearStart year + k) :
    (d - d / 1460 + d / 36524 - d / 146096) / 365 = year := by
  unfold yearStart at split
  unfold IsLeap at inside
  -- a century, four years of it, and a year of those
  obtain ⟨b, c, i, rfl, hb, hc, hi⟩ : ∃ b c i, year = 100 * b + 4 * c + i ∧ (0 ≤ b ∧ b < 4) ∧
      (0 ≤ c ∧ c < 25) ∧ 0 ≤ i ∧ i < 4 :=
    ⟨year / 100, year % 100 / 4, year % 4, by omega, by omega, by omega, by omega⟩
  have sum : d = 36524 * b + 1461 * c + 365 * i + k := by omega
  have last : k < 365 ∨ k = 365 ∧ i = 3 ∧ (c < 24 ∨ b = 3) := by omega
  clear split inside nonneg below
  have fours : d / 1460 = 25 * b + c ∧ 24 * b + c + 365 * i + k < 1460 ∨
      d / 1460 = 25 * b + c + 1 ∧ 1460 ≤ 24 * b + c + 365 * i + k := by omega
  have centuries : d / 36524 = b ∧ 1461 * c + 365 * i + k < 36524 ∨
      d / 36524 = b + 1 ∧ c = 24 ∧ i = 3 ∧ k = 365 := by omega
  have whole : d / 146096 = 0 ∧ d < 146096 ∨ d / 146096 = 1 ∧ d = 146096 := by omega
  omega

theorem isLeap_emod (year : Int) : IsLeap (year % 400 + 1) ↔ IsLeap (year + 1) := by
  unfold IsLeap
  omega

/-- The calendar repeats itself after four hundred years. -/
theorem era_eq {year k : Int} (nonneg : 0 ≤ k) (inside : k < 365 ∨ k = 365 ∧ IsLeap (year + 1)) :
    (yearStart year + year / 400 + k) / 146097 = year / 400 ∧
      (yearStart year + year / 400 + k) % 146097 = yearStart (year % 400) + k := by
  have era : yearStart year + year / 400 = 146097 * (year / 400) + yearStart (year % 400) := by
    unfold yearStart
    omega
  have below : 0 ≤ yearStart (year % 400) + k ∧ yearStart (year % 400) + k < 146097 := by
    unfold yearStart
    omega
  omega

theorem monthOfYear_eq {month d : Int} (lower : monthStart month ≤ d)
    (upper : d < monthStart (month + 1)) : (5 * d + 2) / 153 = month := by
  unfold monthStart at lower upper
  omega

/-! ## Machine integers -/

section Checked

variable {a b : Int64}

/-- Numbers that are not too large fit. -/
theorem exists_fixed?_of_small (lower : -2 ^ 62 ≤ n) (upper : n ≤ 2 ^ 62) :
    ∃ x, fixed? n = some x ∧ x.toInt = n :=
  exists_fixed? (Int.le_trans (by decide) lower) (Int.le_trans upper (by decide))

theorem exists_add? (value : a.toInt + b.toInt = n) (lower : -2 ^ 62 ≤ n) (upper : n ≤ 2 ^ 62) :
    ∃ c, add? a b = some c ∧ c.toInt = n :=
  value ▸ exists_fixed?_of_small (value ▸ lower) (value ▸ upper)

theorem exists_sub? (value : a.toInt - b.toInt = n) (lower : -2 ^ 62 ≤ n) (upper : n ≤ 2 ^ 62) :
    ∃ c, sub? a b = some c ∧ c.toInt = n :=
  value ▸ exists_fixed?_of_small (value ▸ lower) (value ▸ upper)

theorem exists_mul? (value : a.toInt * b.toInt = n) (lower : -2 ^ 62 ≤ n) (upper : n ≤ 2 ^ 62) :
    ∃ c, mul? a b = some c ∧ c.toInt = n :=
  value ▸ exists_fixed?_of_small (value ▸ lower) (value ▸ upper)

theorem toInt_div_of_nonneg (nonneg : 0 ≤ a.toInt) (divisor : b ≠ -1) :
    (a / b).toInt = a.toInt / b.toInt := by
  rw [Int64.toInt_div_of_ne_right a b divisor, Int.tdiv_eq_ediv_of_nonneg nonneg]

end Checked

theorem exists_yearOfEra? {d : Int64} {year k : Int} (nonneg : 0 ≤ year) (below : year < 400)
    (k_nonneg : 0 ≤ k) (inside : k < 365 ∨ k = 365 ∧ IsLeap (year + 1))
    (split : d.toInt = yearStart year + k) :
    ∃ y, yearOfEra? d = some y ∧ y.toInt = year := by
  have year_eq := yearOfEra_eq nonneg below k_nonneg inside split
  have small : 0 ≤ d.toInt ∧ d.toInt ≤ 146100 + 365 := by
    unfold yearStart at split
    omega
  have fours : (d / 1460).toInt = d.toInt / 1460 := toInt_div_of_nonneg small.1 (by decide)
  have centuries : (d / 36524).toInt = d.toInt / 36524 := toInt_div_of_nonneg small.1 (by decide)
  have whole : (d / 146096).toInt = d.toInt / 146096 := toInt_div_of_nonneg small.1 (by decide)
  clear inside split
  obtain ⟨x, first, x_eq⟩ := exists_sub? (congrArg (d.toInt - ·) fours) (by omega) (by omega)
  obtain ⟨y, second, y_eq⟩ := exists_add? (congrArg₂ (· + ·) x_eq centuries) (by omega) (by omega)
  obtain ⟨z, third, z_eq⟩ := exists_sub? (congrArg₂ (· - ·) y_eq whole) (by omega) (by omega)
  refine ⟨z / 365, ?_, ?_⟩
  · unfold yearOfEra?
    simp only [first, second, third, Option.bind_eq_bind, Option.bind_some]
    rfl
  · rw [← z_eq] at year_eq
    exact (toInt_div_of_nonneg (by omega) (by decide)).trans year_eq

theorem exists_yearStart? {y : Int64} (nonneg : 0 ≤ y.toInt) (below : y.toInt < 400) :
    ∃ d, yearStart? y = some d ∧ d.toInt = yearStart y.toInt := by
  have fours : (y / 4).toInt = y.toInt / 4 := toInt_div_of_nonneg nonneg (by decide)
  have centuries : (y / 100).toInt = y.toInt / 100 := toInt_div_of_nonneg nonneg (by decide)
  obtain ⟨x, first, x_eq⟩ :=
    exists_mul? (a := 365) (b := y) (n := 365 * y.toInt) rfl (by omega) (by omega)
  obtain ⟨z, second, z_eq⟩ := exists_add? (congrArg₂ (· + ·) x_eq fours) (by omega) (by omega)
  obtain ⟨d, third, d_eq⟩ := exists_sub? (congrArg₂ (· - ·) z_eq centuries) (by omega) (by omega)
  refine ⟨d, ?_, d_eq⟩
  unfold yearStart?
  simp only [first, second, third, Option.bind_eq_bind, Option.bind_some]

theorem exists_monthOfYear? {d : Int64} {month : Int} (nonneg : 0 ≤ d.toInt) (below : d.toInt ≤ 365)
    (lower : monthStart month ≤ d.toInt) (upper : d.toInt < monthStart (month + 1)) :
    ∃ m, monthOfYear? d = some m ∧ m.toInt = month := by
  have month_eq := monthOfYear_eq lower upper
  obtain ⟨x, first, x_eq⟩ :=
    exists_mul? (a := 5) (b := d) (n := 5 * d.toInt) rfl (by omega) (by omega)
  obtain ⟨z, second, z_eq⟩ :=
    exists_add? (a := x) (b := 2) (n := 5 * d.toInt + 2) (congrArg (· + 2) x_eq) (by omega)
      (by omega)
  refine ⟨z / 153, ?_, ?_⟩
  · unfold monthOfYear?
    simp only [first, second, Option.bind_eq_bind, Option.bind_some]
    rfl
  · rw [← z_eq] at month_eq
    exact (toInt_div_of_nonneg (by omega) (by decide)).trans month_eq

theorem exists_monthStart? {m : Int64} (nonneg : 0 ≤ m.toInt) (below : m.toInt < 12) :
    ∃ d, monthStart? m = some d ∧ d.toInt = monthStart m.toInt := by
  obtain ⟨x, first, x_eq⟩ :=
    exists_mul? (a := 153) (b := m) (n := 153 * m.toInt) rfl (by omega) (by omega)
  obtain ⟨z, second, z_eq⟩ :=
    exists_add? (a := x) (b := 2) (n := 153 * m.toInt + 2) (congrArg (· + 2) x_eq) (by omega)
      (by omega)
  refine ⟨z / 5, ?_, ?_⟩
  · unfold monthStart?
    simp only [first, second, Option.bind_eq_bind, Option.bind_some]
    rfl
  · refine (toInt_div_of_nonneg (by omega) (by decide)).trans ?_
    rw [z_eq]
    rfl

/-- The month of the calendar is found from the months since March. -/
theorem exists_month {m : Int64} {month : Nat} (positive : 1 ≤ month) (most : month ≤ 12)
    (value : m.toInt = fromMarch month) :
    ∃ x : Int64, x.toInt = month ∧
      (m < 10 ∧ add? m 3 = some x ∨ ¬m < 10 ∧ sub? m 9 = some x) := by
  have before : m < 10 ↔ m.toInt < 10 := Int64.lt_iff_toInt_lt
  rw [before]
  unfold fromMarch at value
  split at value
  next =>
    have nine : m.toInt - (9 : Int64).toInt = month := by
      rw [value]
      exact Int.add_sub_cancel ..
    obtain ⟨x, fits, x_eq⟩ := exists_sub? nine (by omega) (by omega)
    exact ⟨x, x_eq, .inr ⟨by omega, fits⟩⟩
  next =>
    have three : m.toInt + (3 : Int64).toInt = month := by
      rw [value]
      exact Int.sub_add_cancel ..
    obtain ⟨x, fits, x_eq⟩ := exists_add? three (by omega) (by omega)
    exact ⟨x, x_eq, .inl ⟨by omega, fits⟩⟩

theorem Date.Valid.fromMarch_bounds (valid : date.Valid) :
    0 ≤ fromMarch date.month ∧ fromMarch date.month < 12 := by
  have month_pos := valid.month_pos
  have month_le := valid.month_le
  unfold fromMarch
  split <;> omega

theorem Date.Valid.dayOfYear_nonneg (valid : date.Valid) : 0 ≤ date.dayOfYear := by
  have first := valid.fromMarch_bounds.1
  have lower := valid.dayOfYear_bounds.1
  unfold monthStart at lower
  omega

/-- The year and the day of the year are found from the number of a date. -/
theorem exists_dayOfYear (valid : date.Valid) (number : date.dayNumber = days.toInt)
    (lower : -2 ^ 61 ≤ days.toInt) (upper : days.toInt ≤ 2 ^ 61) :
    ∃ shifted year first day : Int64, add? days 719468 = some shifted ∧
      yearOfEra? (Int64.ofInt (shifted.toInt % 146097)) = some year ∧
        yearStart? year = some first ∧
          sub? (Int64.ofInt (shifted.toInt % 146097)) first = some day ∧
            (Int64.ofInt (shifted.toInt / 146097)).toInt = date.marchYear / 400 ∧
              year.toInt = date.marchYear % 400 ∧ day.toInt = date.dayOfYear := by
  have inside := valid.dayOfYear_bounds.2.2
  have nonneg := valid.dayOfYear_nonneg
  obtain ⟨era, dayOfEra⟩ := era_eq nonneg inside
  obtain ⟨shifted, shiftedFits, shifted_eq⟩ :=
    exists_add? (a := days) (b := 719468) (n := days.toInt + 719468) rfl (by omega) (by omega)
  have total : yearStart date.marchYear + date.marchYear / 400 + date.dayOfYear = shifted.toInt := by
    rw [shifted_eq, ← number, Date.dayNumber, Int.sub_add_cancel]
  rw [total] at era dayOfEra
  have era_toInt : (Int64.ofInt (shifted.toInt / 146097)).toInt = date.marchYear / 400 :=
    (Int64.toInt_ofInt_of_le (by omega) (by omega)).trans era
  have dayOfEra_toInt : (Int64.ofInt (shifted.toInt % 146097)).toInt =
      yearStart (date.marchYear % 400) + date.dayOfYear :=
    (Int64.toInt_ofInt_of_le (by omega) (by omega)).trans dayOfEra
  clear total number shifted_eq
  obtain ⟨year, yearFits, year_eq⟩ := exists_yearOfEra? (by omega) (by omega) nonneg
    (inside.imp_right (And.imp_right (isLeap_emod _).mpr)) dayOfEra_toInt
  obtain ⟨first, firstFits, first_eq⟩ := exists_yearStart? (y := year) (by omega) (by omega)
  rw [year_eq] at first_eq
  have rest : (Int64.ofInt (shifted.toInt % 146097)).toInt - first.toInt = date.dayOfYear := by
    rw [dayOfEra_toInt, first_eq]
    exact add_sub_cancel_left ..
  obtain ⟨day, dayFits, day_eq⟩ := exists_sub? rest (by omega) (by omega)
  exact ⟨shifted, year, first, day, shiftedFits, yearFits, firstFits, dayFits, era_toInt, year_eq,
    day_eq⟩

/-- The day of the month is found from the day of the year. -/
theorem exists_dayOfMonth {d : Int64} (valid : date.Valid) (d_eq : d.toInt = date.dayOfYear) :
    ∃ month first before day : Int64, monthOfYear? d = some month ∧
      monthStart? month = some first ∧ sub? d first = some before ∧ add? before 1 = some day ∧
        month.toInt = fromMarch date.month ∧ day.toInt = date.day := by
  obtain ⟨lower, upper, inside⟩ := valid.dayOfYear_bounds
  have nonneg := valid.dayOfYear_nonneg
  have bounds := valid.fromMarch_bounds
  have short := Nat.le_trans valid.day_le (monthLength_bounds date.year date.month).2
  rw [← d_eq] at lower upper inside nonneg
  obtain ⟨month, monthFits, month_eq⟩ := exists_monthOfYear? nonneg (by omega) lower upper
  obtain ⟨first, firstFits, first_eq⟩ := exists_monthStart? (m := month) (by omega) (by omega)
  have before_eq : d.toInt - first.toInt = date.day - 1 := by
    rw [d_eq, first_eq, month_eq]
    exact add_sub_cancel_left ..
  obtain ⟨before, beforeFits, before_eq⟩ := exists_sub? before_eq (by omega) (by omega)
  have day_eq : before.toInt + (1 : Int64).toInt = date.day := by
    rw [before_eq]
    exact Int.sub_add_cancel ..
  obtain ⟨day, dayFits, day_eq⟩ := exists_add? day_eq (by omega) (by omega)
  exact ⟨month, first, before, day, monthFits, firstFits, beforeFits, dayFits, month_eq, day_eq⟩

/-- The year is found from the year of the era. -/
theorem exists_year {era yearOfEra month : Int64} (era_eq : era.toInt = date.marchYear / 400)
    (yearOfEra_eq : yearOfEra.toInt = date.marchYear % 400) (month_eq : month.toInt = date.month)
    (lower : -2 ^ 61 ≤ date.marchYear) (upper : date.marchYear ≤ 2 ^ 61) :
    ∃ eraYears year x : Int64, mul? era 400 = some eraYears ∧ add? yearOfEra eraYears = some year ∧
      add? year (if month ≤ 2 then 1 else 0) = some x ∧ x.toInt = date.year := by
  have eraYears_eq : era.toInt * (400 : Int64).toInt = date.marchYear / 400 * 400 := by
    rw [era_eq]
    rfl
  obtain ⟨eraYears, eraFits, eraYears_eq⟩ := exists_mul? eraYears_eq (by omega) (by omega)
  have year_eq : yearOfEra.toInt + eraYears.toInt = date.marchYear := by omega
  obtain ⟨year, yearFits, year_eq⟩ := exists_add? year_eq (by omega) (by omega)
  have early : month ≤ 2 ↔ date.month ≤ 2 := by
    rw [Int64.le_iff_toInt_le, month_eq]
    exact Int.ofNat_le
  have added : year.toInt + (if month ≤ 2 then 1 else 0 : Int64).toInt = date.year := by
    rw [year_eq]
    unfold Date.marchYear
    by_cases first : date.month ≤ 2
    · rw [if_pos first, if_pos (early.mpr first)]
      exact Int.sub_add_cancel ..
    · rw [if_neg first, if_neg (mt early.mp first)]
      exact Int.add_zero _
  have near : date.marchYear ≤ date.year ∧ date.year ≤ date.marchYear + 1 := by
    unfold Date.marchYear
    split <;> omega
  obtain ⟨x, fits, x_eq⟩ := exists_add? added (by omega) (by omega)
  exact ⟨eraYears, year, x, eraFits, yearFits, fits, x_eq⟩

/-- A date is found from its number. -/
theorem civil?_of_dayNumber (valid : date.Valid) (number : date.dayNumber = days.toInt)
    (lower : -2 ^ 61 ≤ days.toInt) (upper : days.toInt ≤ 2 ^ 61) : civil? days = some date := by
  have near : -2 ^ 61 ≤ date.marchYear ∧ date.marchYear ≤ 2 ^ 61 := by
    have nonneg := valid.dayOfYear_nonneg
    have inside := valid.dayOfYear_bounds.2.2
    unfold Date.dayNumber yearStart at number
    omega
  obtain ⟨shifted, yearOfEra, first, dayOfYear, shiftedFits, yearFits, firstFits, dayOfYearFits,
    era_eq, year_eq, dayOfYear_eq⟩ := exists_dayOfYear valid number lower upper
  obtain ⟨fromMarch, monthFirst, before, day, fromMarchFits, monthFirstFits, beforeFits, dayFits,
    fromMarch_eq, day_eq⟩ := exists_dayOfMonth valid dayOfYear_eq
  obtain ⟨month, month_eq, monthFits⟩ := exists_month valid.month_pos valid.month_le fromMarch_eq
  obtain ⟨eraYears, marchYear, year, eraFits, marchYearFits, calendarYearFits, calendarYear_eq⟩ :=
    exists_year era_eq year_eq month_eq near.1 near.2
  have found : (⟨year.toInt, month.toInt.toNat, day.toInt.toNat⟩ : Date) = date := by
    rw [calendarYear_eq, month_eq, day_eq]
    rfl
  have last : (do
      let year ← add? yearOfEra (← mul? (Int64.ofInt (shifted.toInt / 146097)) 400)
      let year ← add? year (if month ≤ 2 then 1 else 0)
      return ⟨year.toInt, month.toInt.toNat, day.toInt.toNat⟩) = some date := by
    refine Option.bind_eq_some_iff.mpr ⟨_, eraFits, ?_⟩
    refine Option.bind_eq_some_iff.mpr ⟨_, marchYearFits, ?_⟩
    exact Option.bind_eq_some_iff.mpr ⟨_, calendarYearFits, congrArg some found⟩
  unfold civil?
  refine Option.bind_eq_some_iff.mpr ⟨_, shiftedFits, ?_⟩
  refine Option.bind_eq_some_iff.mpr ⟨_, yearFits, ?_⟩
  refine Option.bind_eq_some_iff.mpr ⟨_, firstFits, ?_⟩
  refine Option.bind_eq_some_iff.mpr ⟨_, dayOfYearFits, ?_⟩
  refine Option.bind_eq_some_iff.mpr ⟨_, fromMarchFits, ?_⟩
  refine Option.bind_eq_some_iff.mpr ⟨_, monthFirstFits, ?_⟩
  refine Option.bind_eq_some_iff.mpr ⟨_, beforeFits, ?_⟩
  refine Option.bind_eq_some_iff.mpr ⟨_, dayFits, ?_⟩
  -- the month is found in one of two ways, and what comes after that is the same
  obtain ⟨late, monthFits⟩ | ⟨early, monthFits⟩ := monthFits
  · rw [if_pos late]
    exact Option.bind_eq_some_iff.mpr ⟨_, monthFits, last⟩
  · rw [if_neg early]
    exact Option.bind_eq_some_iff.mpr ⟨_, monthFits, last⟩

/-- No two dates have the same number. -/
theorem eq_of_dayNumber_eq (valid : date.Valid) (valid' : other.Valid)
    (same : other.dayNumber = date.dayNumber) (lower : -2 ^ 61 ≤ date.dayNumber)
    (upper : date.dayNumber ≤ 2 ^ 61) : other = date := by
  have number : (Int64.ofInt date.dayNumber).toInt = date.dayNumber :=
    Int64.toInt_ofInt_of_le (by omega) (by omega)
  have found := civil?_of_dayNumber valid number.symm (by omega) (by omega)
  have found' := civil?_of_dayNumber valid' (same.trans number.symm) (by omega) (by omega)
  exact Option.some.inj (found'.symm.trans found)

/-- A date lies where its number says. -/
theorem liesAt_dayNumber (valid : date.Valid) (lower : -2 ^ 61 ≤ date.dayNumber)
    (upper : date.dayNumber ≤ 2 ^ 61) : date.LiesAt date.dayNumber := by
  cases number : date.dayNumber with
  | ofNat days =>
      obtain ⟨valid', reached⟩ := Date.valid_start.iterate days
      have same : (Date.next^[days] Date.start).dayNumber = date.dayNumber :=
        reached.trans ((Int.zero_add _).trans number.symm)
      exact eq_of_dayNumber_eq valid valid' same lower upper
  | negSucc days =>
      obtain ⟨valid', reached⟩ := valid.iterate (days + 1)
      have zero : Date.start.dayNumber = 0 := rfl
      have same : (Date.next^[days + 1] date).dayNumber = Date.start.dayNumber := by omega
      exact eq_of_dayNumber_eq Date.valid_start valid' same (by omega) (by omega)

theorem toInt_dayOf (seconds : Int64) : (dayOf seconds).toInt = seconds.toInt / 86400 := by
  have bounds := toInt_bounds seconds
  exact Int64.toInt_ofInt_of_le (by omega) (by omega)

/-- Every point in time lies in a day that has a date, and the date is found without leaving the
machine integers.  It is the only date that lies as many days after the start of 1970, or before it,
as are over at that point in time; and the date that is found for the day after is the next one. -/
theorem civil?_dayOf (seconds : Int64) :
    ∃ date, civil? (dayOf seconds) = some date ∧ date.Valid ∧
      date.LiesAt (seconds.toInt / 86400) ∧
        (∀ other : Date, other.Valid → other.LiesAt (seconds.toInt / 86400) → other = date) ∧
          ∀ later : Int64, later.toInt / 86400 = seconds.toInt / 86400 + 1 →
            civil? (dayOf later) = some date.next := by
  have bounds := toInt_bounds seconds
  obtain ⟨date, valid, number⟩ := Date.exists_dayNumber_eq (seconds.toInt / 86400)
  have day := toInt_dayOf seconds
  refine ⟨date, civil?_of_dayNumber valid (number.trans day.symm) (by omega) (by omega), valid,
    number ▸ liesAt_dayNumber valid (by omega) (by omega), fun other valid' lies => ?_,
    fun later following => ?_⟩
  · have same := (lies.dayNumber_eq valid').trans number.symm
    exact eq_of_dayNumber_eq valid valid' same (by omega) (by omega)
  · have dayLater := toInt_dayOf later
    have bounds' := toInt_bounds later
    have following' : date.next.dayNumber = (dayOf later).toInt := by
      rw [valid.dayNumber_next, number, dayLater, following]
    exact civil?_of_dayNumber valid.next following' (by omega) (by omega)

/-- The year 1900 had no leap day. -/
example : civil? (-25509) = some ⟨1900, 2, 28⟩ ∧ civil? (-25508) = some ⟨1900, 3, 1⟩ := by decide

end EditorLisp.Primitives
