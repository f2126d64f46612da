import Mathlib
import AliSql.Time.Packed

/-!
# `calc_daynr` and `get_date_from_daynr`: day numbers

`calc_daynr` (`sql-common/my_time.c`) numbers the days from 0000-01-01, day 1, in the
proleptic Gregorian calendar in which year 0 is a common year (`calc_days_in_year`). It
counts January and February in the year before, so that the leap day ends the counted year,
and takes the days before a month from `31 * (month - 1)` less the correction
`(month * 4 + 23) / 10`. `get_date_from_daynr` (`sql/sql_time.cc`) inverts it on
`[366, 3652500)`: it estimates the year as `daynr * 100 / 36525`, takes the day of the year
in `uint` arithmetic, moves the year on while that day is past the year's end, and walks the
months of `days_in_month` with February 29 set apart.

Over the model sits the calendar itself: year and month lengths, the days before a year
(`days_before_year`) and before a month (`days_before_month`). `calc_daynr` counts exactly
these (`calc_daynr_eq`). The estimate never passes the true year, so the day of the year
is at least 1 and does not wrap (`get_date_from_daynr.estimate`); the loop then stops at the
one year whose days hold `daynr` (`get_date_from_daynr.year_loop_spec`), and the month walk
splits the day of the year back into a month and a day (`get_date_from_daynr.month_day_date`,
`get_date_from_daynr.month_day_spec`). The day numbers of the dates of years 1 to 9999 are
`[366, 3652424]`, and on them the two functions are inverse (`daynr_date_inverse`).

`int` and `long` arithmetic is on `Int`, with C's truncating division; for years up to 9999
nothing overflows.
-/

set_option autoImplicit false

namespace AliSql
namespace MyTime

/-- `calc_days_in_year(year)`: the days of a year; year 0 is a common year. -/
def calc_days_in_year (year : Nat) : Nat :=
  if year &&& 3 = 0 ∧ (year % 100 ≠ 0 ∨ (year % 400 = 0 ∧ year ≠ 0)) then 366 else 365

/-- `days_in_month[]`, ended by 0. -/
def days_in_month : List Nat := [31, 28, 31, 30, 31, 30, 31, 31, 30, 31, 30, 31, 0]

/-- `calc_daynr(year, month, day)`: the day number, 1 for 0000-01-01. `int` and `long`
    arithmetic on `Int`, with C's truncating division. -/
def calc_daynr (year month day : Nat) : Int :=
  if (year : Int) = 0 ∧ month = 0 then 0
  else
    let delsum : Int := 365 * (year : Int) + 31 * ((month : Int) - 1) + day
    -- January and February count in the year before
    let y : Int := if month ≤ 2 then (year : Int) - 1 else year
    let delsum := if month ≤ 2 then delsum else delsum - ((month : Int) * 4 + 23).tdiv 10
    let temp : Int := ((y.tdiv 100 + 1) * 3).tdiv 4
    delsum + y.tdiv 4 - temp

/-- The `while` loop of `get_date_from_daynr`, for at most `fuel` rounds: the year moves on
    while the day of the year is past its end. It returns the year, the day of the year and
    `days_in_year`, the length of that year. -/
def get_date_from_daynr.year_loop : Nat → Nat → Nat → Nat × Nat × Nat
  | 0, year, day_of_year => (year, day_of_year, calc_days_in_year year)
  | fuel + 1, year, day_of_year =>
    let days_in_year := calc_days_in_year year
    if day_of_year > days_in_year then
      get_date_from_daynr.year_loop fuel (year + 1) (day_of_year - days_in_year)
    else (year, day_of_year, days_in_year)

/-- The `for` loop over `days_in_month` of `get_date_from_daynr`: the month moves on while
    the day is past the month's end. It returns the month and the day in it. -/
def get_date_from_daynr.month_loop : List Nat → Nat → Nat → Nat × Nat
  | [], day_of_year, month => (month, day_of_year)
  | days :: month_pos, day_of_year, month =>
    if day_of_year > days then
      get_date_from_daynr.month_loop month_pos (day_of_year - days) (month + 1)
    else (month, day_of_year)

/-- The end of `get_date_from_daynr`: from the day of the year and the length of the year,
    the month and the day. In a leap year the days from March 1 on move one back, and
    February 29 comes out as February 28 and the leap day. -/
def get_date_from_daynr.month_day (days_in_year day_of_year : Nat) : Nat × Nat :=
  let (day_of_year, leap_day) :=
    if days_in_year = 366 ∧ day_of_year > 31 + 28 then
      (day_of_year - 1, if day_of_year - 1 = 31 + 28 then 1 else 0)
    else (day_of_year, 0)
  let (month, day_of_year) := get_date_from_daynr.month_loop days_in_month day_of_year 1
  (month, day_of_year + leap_day)

/-- `get_date_from_daynr(daynr, &year, &month, &day)`. The estimate of the year and the day
    of the year are `uint`s (`to_uint`); the loop over the years runs at most `day_of_year`
    rounds, each taking at least 365 days off. -/
def get_date_from_daynr (daynr : Int) : Nat × Nat × Nat :=
  if daynr ≤ 365 ∨ daynr ≥ 3652500 then (0, 0, 0)
  else
    let year := to_uint ((daynr * 100).tdiv 36525)
    let temp := ((to_uint ((year : Int) - 1) / 100 + 1) * 3) / 4
    let day_of_year := to_uint ((to_uint (daynr - year * 365) : Int) -
      (to_uint ((year : Int) - 1) / 4 : Nat) + temp)
    let (year, day_of_year, days_in_year) :=
      get_date_from_daynr.year_loop day_of_year year day_of_year
    let (month, day) := get_date_from_daynr.month_day days_in_year day_of_year
    (year, month, day)

example : calc_daynr 2024 2 29 = 739310 := by decide
example : get_date_from_daynr 739310 = (2024, 2, 29) := by decide

/-! ## The calendar -/

/-- Leap years as `calc_days_in_year` counts them: the Gregorian rule, with year 0 a
    common year. -/
def leap_year (Y : Nat) : Prop := Y ≠ 0 ∧ 4 ∣ Y ∧ (¬ 100 ∣ Y ∨ 400 ∣ Y)

instance (Y : Nat) : Decidable (leap_year Y) := inferInstanceAs (Decidable (_ ∧ _))

def year_length (Y : Nat) : Nat := if leap_year Y then 366 else 365

def month_length (Y M : Nat) : Nat :=
  if M = 2 then (if leap_year Y then 29 else 28)
  else if M = 4 ∨ M = 6 ∨ M = 9 ∨ M = 11 then 30
  else 31

/-- The days before January 1 of year `Y`, with 0000-01-01 day 1. -/
def days_before_year : Nat → Nat
  | 0 => 0
  | Y + 1 => days_before_year Y + year_length Y

/-- The days of year `Y` before the first of month `M`. -/
def days_before_month (Y : Nat) : Nat → Nat
  | 0 => 0
  | 1 => 0
  | M + 2 => days_before_month Y (M + 1) + month_length Y (M + 1)

/-- A date of the years 1 to 9999. -/
def Date_valid (Y M D : Nat) : Prop :=
  1 ≤ Y ∧ Y ≤ 9999 ∧ 1 ≤ M ∧ M ≤ 12 ∧ 1 ≤ D ∧ D ≤ month_length Y M

instance (Y M D : Nat) : Decidable (Date_valid Y M D) := inferInstanceAs (Decidable (_ ∧ _))

/-- The calendar day after `Y-M-D`. -/
def next_day (Y M D : Nat) : Nat × Nat × Nat :=
  if D < month_length Y M then (Y, M, D + 1)
  else if M < 12 then (Y, M + 1, 1)
  else (Y + 1, 1, 1)

/-- The two lengths of a year, with the rule in remainders, for `omega`. -/
theorem year_length_cases (Y : Nat) :
    (year_length Y = 366 ∧ Y ≠ 0 ∧ Y % 4 = 0 ∧ (Y % 100 ≠ 0 ∨ Y % 400 = 0)) ∨
      (year_length Y = 365 ∧ (Y = 0 ∨ Y % 4 ≠ 0 ∨ (Y % 100 = 0 ∧ Y % 400 ≠ 0))) := by
  by_cases h : leap_year Y
  · refine Or.inl ⟨if_pos h, ?_⟩
    unfold leap_year at h
    omega
  · refine Or.inr ⟨if_neg h, ?_⟩
    unfold leap_year at h
    omega

theorem calc_days_in_year_eq (year : Nat) : calc_days_in_year year = year_length year := by
  have h3 : year &&& 3 = year % 4 := by simpa using Nat.and_two_pow_sub_one_eq_mod year 2
  have hcases := year_length_cases year
  unfold calc_days_in_year
  rw [h3]
  split_ifs <;> omega

/-- A year's leap day in the three divisions of the closed form. -/
theorem leap_days_succ (y : Nat) :
    (y + 1) / 4 + y / 100 + (y + 1) / 400 + 365 =
      y / 4 + (y + 1) / 100 + y / 400 + year_length (y + 1) := by
  have h4 := @Nat.succ_div y 4
  have h100 := @Nat.succ_div y 100
  have h400 := @Nat.succ_div y 400
  have hlen := year_length_cases (y + 1)
  split_ifs at h4 h100 h400 <;> omega

/-- The days before a year in closed form: 365 a year and the leap days of the years
    1 to `y`. The induction is on the year, one year's length a step. -/
theorem days_before_year_succ_closed (y : Nat) :
    (days_before_year (y + 1) : Int) =
      365 * ((y : Int) + 1) + (y : Int) / 4 - (y : Int) / 100 + (y : Int) / 400 := by
  induction y with
  | zero => decide
  | succ y ih =>
    have hstep := leap_days_succ y
    rw [days_before_year, Nat.cast_add, ih]
    push_cast
    omega

/-- The century term of `calc_daynr`: three of every four centuries lose their leap day. -/
theorem century_term (y : Int) : ((y / 100 + 1) * 3) / 4 = y / 100 - y / 400 := by
  omega

/-- Each year has at least 365 days. -/
theorem days_before_year_add (Y : Nat) :
    ∀ k, days_before_year Y + 365 * k ≤ days_before_year (Y + k)
  | 0 => le_refl _
  | k + 1 => by
    have ih := days_before_year_add Y k
    have hcases := year_length_cases (Y + k)
    have hstep : days_before_year (Y + (k + 1)) = days_before_year (Y + k) + year_length (Y + k) := rfl
    omega

theorem days_before_year_mono {a b : Nat} (h : a ≤ b) : days_before_year a ≤ days_before_year b := by
  obtain ⟨k, rfl⟩ := Nat.exists_eq_add_of_le h
  have := days_before_year_add a k
  omega

theorem days_before_year_ten_thousand : days_before_year 10000 = 3652424 := by
  have := days_before_year_succ_closed 9999
  rw [show (10000 : Nat) = 9999 + 1 from rfl]
  omega

/-- Every day number past year 0 falls in a year: the first `Y` whose end it does not pass. -/
theorem exists_year_of_daynr {N : Nat} (h : 365 < N) :
    ∃ Y, 1 ≤ Y ∧ days_before_year Y < N ∧ N ≤ days_before_year (Y + 1) := by
  have hex : ∃ Y, N ≤ days_before_year (Y + 1) := by
    refine ⟨N, ?_⟩
    have := days_before_year_add 0 (N + 1)
    simp only [Nat.zero_add] at this
    omega
  have hhi := Nat.find_spec hex
  have hY1 : 1 ≤ Nat.find hex := by
    by_contra h0
    have h365 : days_before_year (0 + 1) = 365 := rfl
    rw [show Nat.find hex = 0 by omega] at hhi
    omega
  have hlo := Nat.find_min hex (show Nat.find hex - 1 < Nat.find hex by omega)
  rw [Nat.sub_add_cancel hY1] at hlo
  exact ⟨Nat.find hex, hY1, by omega, hhi⟩

/-- The days before a month: the sums of `days_in_month`, and the leap day from March on. -/
theorem days_before_month_eq (Y : Nat) {M : Nat} (h1 : 1 ≤ M) (h12 : M ≤ 12) :
    days_before_month Y M = (days_in_month.take (M - 1)).sum + if leap_year Y ∧ 3 ≤ M then 1 else 0 := by
  by_cases hl : leap_year Y <;> interval_cases M <;> simp [days_before_month, month_length, days_in_month, hl]

theorem month_length_eq (Y : Nat) {M : Nat} (h1 : 1 ≤ M) (h12 : M ≤ 12) :
    month_length Y M = days_in_month.getD (M - 1) 0 + if leap_year Y ∧ M = 2 then 1 else 0 := by
  by_cases hl : leap_year Y <;> interval_cases M <;> simp [month_length, days_in_month, hl]

/-- `31 * (month - 1) - (month * 4 + 23) / 10` is the days before `month` in a common year,
    from March on. -/
theorem month_correction {M : Nat} (h3 : 3 ≤ M) (h12 : M ≤ 12) :
    31 * (M - 1) - (M * 4 + 23) / 10 = (days_in_month.take (M - 1)).sum := by
  interval_cases M <;> rfl

theorem days_before_month_succ (Y : Nat) {M : Nat} (h1 : 1 ≤ M) :
    days_before_month Y (M + 1) = days_before_month Y M + month_length Y M := by
  obtain ⟨m, rfl⟩ : ∃ m, M = m + 1 := ⟨M - 1, by omega⟩
  rfl

/-- The twelve months make up the year. -/
theorem days_before_month_thirteen (Y : Nat) : days_before_month Y 13 = year_length Y := by
  by_cases hl : leap_year Y <;> simp [days_before_month, month_length, year_length, hl]

theorem days_before_month_add_length_le (Y : Nat) {M : Nat} (h1 : 1 ≤ M) (h12 : M ≤ 12) :
    days_before_month Y M + month_length Y M ≤ year_length Y := by
  rw [← days_before_month_succ Y h1, ← days_before_month_thirteen Y]
  induction h12 using Nat.decreasingInduction with
  | self => exact le_rfl
  | of_succ k hk ih =>
    rw [days_before_month_succ Y (show 1 ≤ k + 1 by omega)] at ih
    omega

/-- January and February: 31 days before February. -/
theorem days_before_month_of_le_two (Y : Nat) {M : Nat} (h1 : 1 ≤ M) (h2 : M ≤ 2) :
    days_before_month Y M = 31 * (M - 1) := by
  interval_cases M <;> rfl

/-- From March on, `calc_daynr`'s month term with the correction, and the leap day. -/
theorem days_before_month_of_three_le (Y : Nat) {M : Nat} (h3 : 3 ≤ M) (h12 : M ≤ 12) :
    days_before_month Y M + (M * 4 + 23) / 10 = 31 * (M - 1) + (year_length Y - 365) := by
  have hcorr := month_correction h3 h12
  have hbound : (M * 4 + 23) / 10 ≤ 31 * (M - 1) := by omega
  have hleap : (if leap_year Y ∧ 3 ≤ M then 1 else 0) = year_length Y - 365 := by
    by_cases hl : leap_year Y <;> simp [year_length, hl, h3]
  rw [days_before_month_eq Y (by omega) h12, hleap]
  omega

/-- **`calc_daynr` counts the calendar**: the days before the year, before the month, and
    the day. -/
theorem calc_daynr_eq {Y M : Nat} (hY : 1 ≤ Y) (h1 : 1 ≤ M) (h12 : M ≤ 12) (D : Nat) :
    calc_daynr Y M D = (days_before_year Y + days_before_month Y M + D : Nat) := by
  obtain ⟨y, rfl⟩ : ∃ y, Y = y + 1 := ⟨Y - 1, by omega⟩
  unfold calc_daynr
  rw [if_neg (by omega)]
  dsimp only
  push_cast
  by_cases h2 : M ≤ 2
  · -- January and February: counted in year `y`
    have hprev := days_before_year_succ_closed y
    have hmonth := days_before_month_of_le_two (y + 1) h1 h2
    have hy : (0 : Int) ≤ (y : Int) := by omega
    simp only [h2, if_true, add_sub_cancel_right]
    rw [Int.tdiv_eq_ediv_of_nonneg hy, Int.tdiv_eq_ediv_of_nonneg hy,
      Int.tdiv_eq_ediv_of_nonneg (by omega), century_term]
    omega
  · -- from March on: counted in the year itself, whose leap day is already past
    have hnext := days_before_year_succ_closed (y + 1)
    have hstep : days_before_year (y + 1 + 1) = days_before_year (y + 1) + year_length (y + 1) :=
      rfl
    have hmonth := days_before_month_of_three_le (y + 1) (by omega) h12
    have hlen := year_length_cases (y + 1)
    have hy : (0 : Int) ≤ (y : Int) + 1 := by omega
    push_cast at hnext
    simp only [h2, if_false]
    rw [Int.tdiv_eq_ediv_of_nonneg hy, Int.tdiv_eq_ediv_of_nonneg hy,
      Int.tdiv_eq_ediv_of_nonneg (by omega), Int.tdiv_eq_ediv_of_nonneg (by omega), century_term]
    omega

/-! ## The walk over the months -/

namespace get_date_from_daynr

/-- The walk over the month lengths `l` ends in month `m + k` on day `D` for a day of the year
    past the first `k` months. The induction is on `k`, one month a step. -/
theorem month_loop_sum (l : List Nat) (k : Nat) {D : Nat} (hD1 : 1 ≤ D) (hDk : D ≤ l.getD k 0)
    (m : Nat) : month_loop l ((l.take k).sum + D) m = (m + k, D) := by
  induction k generalizing l m with
  | zero =>
    cases l with
    | nil => simp at hDk; omega
    | cons a t =>
      simp only [List.getD_cons_zero] at hDk
      simp [month_loop, Nat.not_lt.mpr hDk]
  | succ k ih =>
    cases l with
    | nil => simp at hDk; omega
    | cons a t =>
      simp only [List.getD_cons_succ] at hDk
      have hpast : a + (t.take k).sum + D > a := by omega
      rw [List.take_succ_cons, List.sum_cons, month_loop, if_pos hpast,
        show a + (t.take k).sum + D - a = (t.take k).sum + D by omega, ih t hDk (m + 1)]
      ac_rfl

/-- Every day of the year within the total of `l` falls in some month `k`, where the walk
    ends. The induction is on the list of month lengths. -/
theorem month_loop_spec (l : List Nat) {d : Nat} (h1 : 1 ≤ d) (hd : d ≤ l.sum) (m : Nat) :
    ∃ k D, 1 ≤ D ∧ D ≤ l.getD k 0 ∧ d = (l.take k).sum + D ∧ month_loop l d m = (m + k, D) := by
  induction l generalizing d m with
  | nil => simp at hd; omega
  | cons a t ih =>
    by_cases hpast : d > a
    · -- the walk moves on to the next month
      obtain ⟨k, D, hD1, hDk, hsum, hloop⟩ := ih (d := d - a) (by omega) (by simp at hd; omega) (m + 1)
      refine ⟨k + 1, D, hD1, by simpa using hDk, by simp; omega, ?_⟩
      rw [month_loop, if_pos hpast, hloop]
      simp only [Prod.mk.injEq, and_true]
      omega
    · -- the walk stops in this month
      refine ⟨0, d, h1, by simp; omega, by simp, ?_⟩
      rw [month_loop, if_neg hpast, Nat.add_zero]

theorem month_day_of_not_shift {days_in_year day_of_year : Nat}
    (h : ¬ (days_in_year = 366 ∧ day_of_year > 31 + 28)) :
    month_day days_in_year day_of_year = month_loop days_in_month day_of_year 1 := by
  simp [month_day, h]

theorem month_day_of_shift {days_in_year day_of_year : Nat}
    (h : days_in_year = 366 ∧ day_of_year > 31 + 28) :
    month_day days_in_year day_of_year =
      ((month_loop days_in_month (day_of_year - 1) 1).1,
        (month_loop days_in_month (day_of_year - 1) 1).2 +
          if day_of_year - 1 = 31 + 28 then 1 else 0) := by
  simp [month_day, h]

/-- Only the twelve months have days; the 0 that ends `days_in_month` has none. -/
theorem lt_twelve_of_getD_pos {k : Nat} (h : 1 ≤ days_in_month.getD k 0) : k < 12 := by
  by_contra hk
  rcases Nat.lt_or_ge k 13 with h13 | h13
  · obtain rfl : k = 12 := by omega
    simp [days_in_month] at h
  · rw [List.getD_eq_default _ _ (by simpa [days_in_month] using h13)] at h
    omega

/-- January and February together have 59 days in a common year. -/
theorem take_sum_add_getD_le {k : Nat} (hk : k ≤ 1) :
    (days_in_month.take k).sum + days_in_month.getD k 0 ≤ 31 + 28 := by
  interval_cases k <;> decide

theorem fifty_nine_le_take_sum {k : Nat} (h2 : 2 ≤ k) (hk : k < 12) :
    31 + 28 ≤ (days_in_month.take k).sum := by
  interval_cases k <;> decide

/-- **The month walk inverts the days before a month**: day `D` of month `M` of year `Y`
    comes back as `(M, D)`. In a leap year the walk is over the common year's months, with
    the days from March 1 moved one back and February 29 set apart. -/
theorem month_day_date (Y : Nat) {M D : Nat} (h1 : 1 ≤ M) (h12 : M ≤ 12) (hD1 : 1 ≤ D)
    (hD : D ≤ month_length Y M) :
    month_day (year_length Y) (days_before_month Y M + D) = (M, D) := by
  rw [days_before_month_eq Y h1 h12]
  rw [month_length_eq Y h1 h12] at hD
  have hM : 1 + (M - 1) = M := by omega
  by_cases hl : leap_year Y
  · have h366 : year_length Y = 366 := if_pos hl
    by_cases h3 : 3 ≤ M
    · -- from March on: one day back, and no leap day to add
      have hpre := fifty_nine_le_take_sum (k := M - 1) (by omega) (by omega)
      have hDk : D ≤ days_in_month.getD (M - 1) 0 := by simpa [show M ≠ 2 by omega] using hD
      rw [if_pos ⟨hl, h3⟩, month_day_of_shift ⟨h366, by omega⟩,
        show (days_in_month.take (M - 1)).sum + 1 + D - 1 = (days_in_month.take (M - 1)).sum + D
          by omega,
        month_loop_sum days_in_month (M - 1) hD1 hDk 1, if_neg (by omega), hM, Nat.add_zero]
    · rw [if_neg (fun h => h3 h.2), Nat.add_zero]
      by_cases hleap : M = 2 ∧ D = 29
      · -- February 29: the walk ends on February 28 and the leap day is added
        obtain ⟨rfl, rfl⟩ := hleap
        rw [h366]
        decide
      · -- January, and February 1 to 28: as in a common year
        have hDk : D ≤ days_in_month.getD (M - 1) 0 := by
          by_cases h2 : M = 2
          · subst h2
            have h28 : days_in_month.getD (2 - 1) 0 = 28 := rfl
            rw [h28, if_pos ⟨hl, rfl⟩] at hD
            rw [h28]
            omega
          · simpa [h2] using hD
        have hpre := take_sum_add_getD_le (k := M - 1) (by omega)
        rw [month_day_of_not_shift (by omega), month_loop_sum days_in_month (M - 1) hD1 hDk 1, hM]
  · -- a common year: the walk over `days_in_month` as it is
    have h365 : year_length Y = 365 := if_neg hl
    have hDk : D ≤ days_in_month.getD (M - 1) 0 := by simpa [hl] using hD
    rw [if_neg (fun h => hl h.1), Nat.add_zero, month_day_of_not_shift (by omega),
      month_loop_sum days_in_month (M - 1) hD1 hDk 1, hM]

/-- **Every day of the year is a date**: the walk ends on a month and a day of year `Y` whose
    days before it and whose day make up the day of the year. -/
theorem month_day_spec (Y : Nat) {d : Nat} (h1 : 1 ≤ d) (hd : d ≤ year_length Y) :
    ∃ M D, 1 ≤ M ∧ M ≤ 12 ∧ 1 ≤ D ∧ D ≤ month_length Y M ∧
      days_before_month Y M + D = d ∧ month_day (year_length Y) d = (M, D) := by
  have hsum : days_in_month.sum = 365 := rfl
  have hcases := year_length_cases Y
  by_cases hshift : year_length Y = 366 ∧ d > 31 + 28
  · have hl : leap_year Y := by
      by_contra hl
      have : year_length Y = 365 := if_neg hl
      omega
    by_cases hfeb : d = 60
    · -- February 29
      subst hfeb
      refine ⟨2, 29, by omega, by omega, by omega, by simp [month_length, hl], rfl, ?_⟩
      rw [hshift.1]
      decide
    · -- from March 1: the walk is one day back
      obtain ⟨k, D, hD1, hDk, hdk, hloop⟩ :=
        month_loop_spec days_in_month (d := d - 1) (by omega) (by omega) 1
      have hk := lt_twelve_of_getD_pos (by omega : 1 ≤ days_in_month.getD k 0)
      have hk2 : 2 ≤ k := by
        by_contra hk2
        have := take_sum_add_getD_le (k := k) (by omega)
        omega
      refine ⟨k + 1, D, by omega, by omega, hD1, ?_, ?_, ?_⟩
      · rw [month_length_eq Y (by omega) (by omega)]
        simp only [Nat.add_sub_cancel, show ¬ (k + 1 = 2) by omega, and_false, if_false]
        omega
      · rw [days_before_month_eq Y (by omega) (by omega), if_pos ⟨hl, by omega⟩,
          Nat.add_sub_cancel]
        omega
      · rw [month_day_of_shift hshift, hloop, if_neg (by omega), Nat.add_zero, Nat.add_comm]
  · -- no day moves: the walk over `days_in_month` as it is
    obtain ⟨k, D, hD1, hDk, hdk, hloop⟩ := month_loop_spec days_in_month h1 (by omega) 1
    have hk := lt_twelve_of_getD_pos (by omega : 1 ≤ days_in_month.getD k 0)
    have hnoleap : ¬ (leap_year Y ∧ 3 ≤ k + 1) := by
      rintro ⟨hl, hk3⟩
      have h366 : year_length Y = 366 := if_pos hl
      have := fifty_nine_le_take_sum (k := k) (by omega) hk
      omega
    refine ⟨k + 1, D, by omega, by omega, hD1, ?_, ?_, ?_⟩
    · rw [month_length_eq Y (by omega) (by omega), Nat.add_sub_cancel]
      omega
    · rw [days_before_month_eq Y (by omega) (by omega), if_neg hnoleap, Nat.add_sub_cancel]
      omega
    · rw [month_day_of_not_shift hshift, hloop, Nat.add_comm]

/-- **The loop over the years stops at the year that holds the day**: from any year not past
    it, given enough rounds, the loop ends at the year `Y` with
    `days_before_year Y < N ≤ days_before_year (Y + 1)`. The induction is on the fuel. -/
theorem year_loop_spec {N Y : Nat} (hlo : days_before_year Y < N)
    (hhi : N ≤ days_before_year (Y + 1)) :
    ∀ fuel year, year ≤ Y → Y - year ≤ fuel →
      year_loop fuel year (N - days_before_year year) =
        (Y, N - days_before_year Y, year_length Y) := by
  intro fuel
  induction fuel with
  | zero =>
    intro year hy hfuel
    obtain rfl : year = Y := by omega
    rw [year_loop, calc_days_in_year_eq]
  | succ fuel ih =>
    intro year hy hfuel
    have hstep : days_before_year (year + 1) = days_before_year year + year_length year := rfl
    have hmono := days_before_year_mono hy
    rw [year_loop, calc_days_in_year_eq]
    by_cases hpast : N - days_before_year year > year_length year
    · -- the day is past this year: one year on
      have hlt : year < Y := by
        by_contra hge
        obtain rfl : year = Y := by omega
        omega
      rw [if_pos hpast,
        show N - days_before_year year - year_length year = N - days_before_year (year + 1) by omega]
      exact ih (year + 1) hlt (by omega)
    · -- the day is in this year, which is `Y`
      obtain rfl : year = Y := by
        by_contra hne
        have := days_before_year_mono (show year + 1 ≤ Y by omega)
        omega
      rw [if_neg hpast]

end get_date_from_daynr

/-! ## Day numbers and dates -/

/-- **`get_date_from_daynr` finds the year and walks its months**: for a day number of
    `[366, 3652500)` in year `Y`, the estimate `daynr * 100 / 36525` is a year `e` not past
    `Y` with the day of the year `daynr - days_before_year e` computed without wrapping, and
    the loop moves on to `Y`. -/
theorem get_date_from_daynr_eq {N Y : Nat} (h1 : 366 ≤ N) (h2 : N < 3652500)
    (hlo : days_before_year Y < N) (hhi : N ≤ days_before_year (Y + 1)) :
    get_date_from_daynr N = (Y, get_date_from_daynr.month_day (year_length Y) (N - days_before_year Y)) := by
  set e := N * 100 / 36525 with he
  have he1 : 1 ≤ e := by omega
  have hyear : to_uint (((N : Int) * 100).tdiv 36525) = e := by
    rw [Int.tdiv_eq_ediv_of_nonneg (by omega), to_uint_of_lt (by omega) (by omega)]
    omega
  have hprev : to_uint ((e : Int) - 1) = e - 1 := by
    rw [to_uint_of_lt (by omega) (by omega)]
    omega
  have hrest : to_uint ((N : Int) - (e : Int) * 365) = N - e * 365 := by
    rw [to_uint_of_lt (by omega) (by omega)]
    omega
  -- the estimate is not past the year: `4 * days_before_year e < 1461 * e ≤ 4 * N`
  have hB := days_before_year_succ_closed (e - 1)
  rw [Nat.sub_add_cancel he1] at hB
  have hcentury : ((e - 1) / 100 + 1) * 3 / 4 + (e - 1) / 400 = (e - 1) / 100 := by omega
  have hBe : days_before_year e < N := by omega
  have hday : to_uint (((N - e * 365 : Nat) : Int) - (((e - 1) / 4 : Nat) : Int) +
      ((((e - 1) / 100 + 1) * 3 / 4 : Nat) : Int)) = N - days_before_year e := by
    rw [to_uint_of_lt (by omega) (by omega)]
    omega
  have hle : e ≤ Y := by
    by_contra hgt
    have := days_before_year_mono (show Y + 1 ≤ e by omega)
    omega
  have hfuel : Y - e ≤ N - days_before_year e := by
    have := days_before_year_add e (Y - e)
    rw [Nat.add_sub_cancel' hle] at this
    omega
  unfold get_date_from_daynr
  rw [if_neg (by omega)]
  dsimp only
  rw [hyear, hprev, hrest, hday,
    get_date_from_daynr.year_loop_spec hlo hhi _ e hle hfuel]
/-- A date of the years 1 to 9999 comes back from its day number. -/
theorem date_of_calc_daynr {Y M D : Nat} (h : Date_valid Y M D) :
    get_date_from_daynr (calc_daynr Y M D) = (Y, M, D) := by
  obtain ⟨hY1, hY, hM1, hM12, hD1, hD⟩ := h
  have hlen := days_before_month_add_length_le Y hM1 hM12
  have hstep : days_before_year (Y + 1) = days_before_year Y + year_length Y := rfl
  have hfirst : days_before_year 1 = 365 := rfl
  have hlast := days_before_year_mono (show Y + 1 ≤ 10000 by omega)
  have hmono := days_before_year_mono hY1
  rw [days_before_year_ten_thousand] at hlast
  rw [calc_daynr_eq hY1 hM1 hM12, get_date_from_daynr_eq (Y := Y) (by omega) (by omega) (by omega)
      (by omega),
    show days_before_year Y + days_before_month Y M + D - days_before_year Y =
      days_before_month Y M + D by omega,
    get_date_from_daynr.month_day_date Y hM1 hM12 hD1 hD]

/-- The day after a date has the next day number: within a month, into the next month, and
    into the next year. -/
theorem calc_daynr_next_day {Y M D : Nat} (h : Date_valid Y M D) :
    calc_daynr (next_day Y M D).1 (next_day Y M D).2.1 (next_day Y M D).2.2 =
      calc_daynr Y M D + 1 := by
  obtain ⟨hY1, -, hM1, hM12, -, hD⟩ := h
  rw [calc_daynr_eq hY1 hM1 hM12]
  unfold next_day
  by_cases hlt : D < month_length Y M
  · rw [if_pos hlt]
    dsimp only
    rw [calc_daynr_eq hY1 hM1 hM12]
    push_cast
    ring
  · rw [if_neg hlt]
    by_cases hdec : M < 12
    · -- the first of the next month
      rw [if_pos hdec]
      dsimp only
      rw [calc_daynr_eq hY1 (by omega) (by omega), days_before_month_succ Y hM1]
      push_cast
      omega
    · -- January 1 of the next year
      obtain rfl : M = 12 := by omega
      have hyear : days_before_month Y 12 + month_length Y 12 = year_length Y := by
        rw [← days_before_month_succ Y (by omega), days_before_month_thirteen]
      have hstep : days_before_year (Y + 1) = days_before_year Y + year_length Y := rfl
      have hjan : days_before_month (Y + 1) 1 = 0 := rfl
      rw [if_neg hdec]
      dsimp only
      rw [calc_daynr_eq (by omega) le_rfl (by omega)]
      push_cast
      omega

/-- A day number of `[366, 3652424]` comes back from its date. -/
theorem calc_daynr_of_date {daynr : Int} (h1 : 366 ≤ daynr) (h2 : daynr ≤ 3652424) :
    calc_daynr (get_date_from_daynr daynr).1 (get_date_from_daynr daynr).2.1
      (get_date_from_daynr daynr).2.2 = daynr := by
  obtain ⟨N, rfl⟩ := Int.eq_ofNat_of_zero_le (show 0 ≤ daynr by omega)
  obtain ⟨Y, hY1, hlo, hhi⟩ := exists_year_of_daynr (show 365 < N by omega)
  have hstep : days_before_year (Y + 1) = days_before_year Y + year_length Y := rfl
  obtain ⟨M, D, hM1, hM12, -, -, hsum, hmd⟩ :=
    get_date_from_daynr.month_day_spec Y (d := N - days_before_year Y) (by omega) (by omega)
  rw [get_date_from_daynr_eq (by omega) (by omega) hlo hhi, hmd]
  dsimp only
  rw [calc_daynr_eq hY1 hM1 hM12]
  omega

/-- The date of a day number of `[366, 3652424]` is a date of the years 1 to 9999. -/
theorem date_valid_of_daynr {daynr : Int} (h1 : 366 ≤ daynr) (h2 : daynr ≤ 3652424) :
    Date_valid (get_date_from_daynr daynr).1 (get_date_from_daynr daynr).2.1
      (get_date_from_daynr daynr).2.2 := by
  obtain ⟨N, rfl⟩ := Int.eq_ofNat_of_zero_le (show 0 ≤ daynr by omega)
  obtain ⟨Y, hY1, hlo, hhi⟩ := exists_year_of_daynr (show 365 < N by omega)
  have hstep : days_before_year (Y + 1) = days_before_year Y + year_length Y := rfl
  -- the year is before 10000, whose first day is past `3652424`
  have hY : Y ≤ 9999 := by
    by_contra hgt
    have := days_before_year_mono (show 10000 ≤ Y by omega)
    rw [days_before_year_ten_thousand] at this
    omega
  obtain ⟨M, D, hM1, hM12, hD1, hD, -, hmd⟩ :=
    get_date_from_daynr.month_day_spec Y (d := N - days_before_year Y) (by omega) (by omega)
  rw [get_date_from_daynr_eq (by omega) (by omega) hlo hhi, hmd]
  exact ⟨hY1, hY, hM1, hM12, hD1, hD⟩

theorem daynr_date_inverse :
    (∀ Y M D, Date_valid Y M D → get_date_from_daynr (calc_daynr Y M D) = (Y, M, D)) ∧
    (∀ Y M D, Date_valid Y M D →
      calc_daynr (next_day Y M D).1 (next_day Y M D).2.1 (next_day Y M D).2.2 =
        calc_daynr Y M D + 1) ∧
    (∀ daynr : Int, 366 ≤ daynr → daynr ≤ 3652424 →
      calc_daynr (get_date_from_daynr daynr).1 (get_date_from_daynr daynr).2.1
        (get_date_from_daynr daynr).2.2 = daynr) :=
  ⟨fun _ _ _ h => date_of_calc_daynr h, fun _ _ _ h => calc_daynr_next_day h,
    fun _ h1 h2 => calc_daynr_of_date h1 h2⟩

theorem daynr_date_inverse_leap_day :
    Date_valid 2024 2 29 ∧ get_date_from_daynr (calc_daynr 2024 2 29) = (2024, 2, 29) ∧
      calc_daynr 2024 3 1 = calc_daynr 2024 2 29 + 1 ∧
      calc_daynr (get_date_from_daynr 739310).1 (get_date_from_daynr 739310).2.1
        (get_date_from_daynr 739310).2.2 = 739310 :=
  ⟨by decide, daynr_date_inverse.1 2024 2 29 (by decide),
    daynr_date_inverse.2.1 2024 2 29 (by decide), daynr_date_inverse.2.2 739310 (by decide) (by decide)⟩

end MyTime
end AliSql
