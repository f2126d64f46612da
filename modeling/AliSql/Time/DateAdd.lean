import Mathlib
import AliSql.Time.Daynr
import AliSql.Time.Interval

/-!
# `date_add_interval`: `DATE_ADD` and `DATE_SUB` (`sql/sql_time.cc`)

`date_add_interval` has four cases. The types of days and times add the interval's seconds and
microseconds to the time since the first of the month, take the carries with C's truncating
division and one borrow each (`date_add_interval.carry`), and find the date again from the day
number with `get_date_from_daynr`. `INTERVAL_DAY` and `INTERVAL_WEEK` add days to the day
number; `INTERVAL_YEAR` adds years to the `uint` year; the types of months add months to the
index `year * 12 + month - 1` and cut the day to the new month. Each fails past the year 9999.

Over the model sits what the function is for: a datetime is a point on a line of microseconds
(`time_point`, from the calendar of `Daynr`) and an interval a signed length on it
(`INTERVAL.length`). On intervals that do not wrap, the cases of times, years and months are
exact calendar arithmetic: the borrows give floor division (`date_add_interval.carry_eq`, from
`Radix.tdiv_tmod_cases`), and `get_date_from_daynr` inverts `calc_daynr` on the years 1 to 9999
(`date_add_interval_time_exact`, `date_add_interval_year_exact`,
`date_add_interval_month_exact`). Two datetimes at one point are the same (`time_point_inj`),
so on the types of days and times `DATE_SUB` undoes `DATE_ADD` (`date_sub_date_add`).

The amounts are not checked, though, and wrap. `ltime->year +=` keeps a count of years modulo
`2 ^ 32`, so `2 ^ 32` years leave every datetime as it is, and `DATE_ADD` returns a datetime
for an interval that leads past 9999-12-31 (`date_add_interval_year_wraps`).

`long` and `longlong` arithmetic is exact on `Int`; the casts of the source wrap: to `uint`
(`to_uint`), to `ulong` (`to_ulong`) and from `ulonglong` to `longlong` (`to_longlong`).
-/

set_option autoImplicit false

namespace AliSql
namespace MyTime

open enum_mysql_timestamp_type interval_type

/-- A `ulonglong` read as a `longlong` or a `long` (64 bits): two's complement. -/
def to_longlong (x : Int) : Int := x.bmod (2 ^ 64)

/-- `MAX_DAY_NUMBER`: the day number of 9999-12-31. -/
def MAX_DAY_NUMBER : Int := 3652424

/-- `sign= (interval.neg ? -1 : 1)`. -/
def INTERVAL.sign (interval : INTERVAL) : Int := if interval.neg then -1 else 1

namespace date_add_interval

/-- The carries of the time case, with C's truncating division: the whole seconds out of
    the microseconds into `sec`, a borrow when the microseconds are negative, the days out of
    `sec`, and a borrow when `sec` is negative. It returns `days`, `sec` and `microseconds`. -/
def carry (microseconds sec : Int) : Int × Int × Int :=
  let extra_sec := microseconds.tdiv 1000000
  let microseconds := microseconds.tmod 1000000
  let sec := sec + extra_sec
  let (microseconds, sec) :=
    if microseconds < 0 then (microseconds + 1000000, sec - 1) else (microseconds, sec)
  let days := sec.tdiv (3600 * 24)
  let sec := sec - days * (3600 * 24)
  let (days, sec) := if sec < 0 then (days - 1, sec + 3600 * 24) else (days, sec)
  (days, sec, microseconds)

/-- The case of `date_add_interval` for the types of days and times: the interval in seconds
    and microseconds is added to the time since the first of the month, and the date comes
    back from the day number. -/
def time (ltime : MYSQL_TIME) (sign : Int) (interval : INTERVAL) : Bool × MYSQL_TIME :=
  let microseconds := to_longlong (ltime.second_part + sign * interval.second_part)
  let sec := (to_uint (((ltime.day : Int) - 1) * 3600) : Int) * 24 +
      to_uint (ltime.hour * 3600) + to_uint (ltime.minute * 60) + ltime.second +
      sign * to_longlong (interval.day * 3600 * 24 + interval.hour * 3600 +
        interval.minute * 60 + interval.second)
  let (days, sec, microseconds) := carry microseconds sec
  let ltime := { ltime with
    time_type := MYSQL_TIMESTAMP_DATETIME, second_part := to_uint microseconds,
    second := to_uint (sec.tmod 60), minute := to_uint ((sec.tdiv 60).tmod 60),
    hour := to_uint (sec.tdiv 3600) }
  let daynr := calc_daynr ltime.year ltime.month 1 + days
  -- Day number from year 0 to 9999-12-31
  if to_ulong daynr > MAX_DAY_NUMBER then (true, ltime)
  else
    let (year, month, day) := get_date_from_daynr daynr
    (false, { ltime with year := year, month := month, day := day })

/-- The case of `date_add_interval` for `INTERVAL_DAY` and `INTERVAL_WEEK`: the days are
    added to the day number. -/
def days (ltime : MYSQL_TIME) (sign : Int) (interval : INTERVAL) : Bool × MYSQL_TIME :=
  let period := calc_daynr ltime.year ltime.month ltime.day + sign * to_longlong interval.day
  -- Daynumber from year 0 to 9999-12-31
  if to_ulong period > MAX_DAY_NUMBER then (true, ltime)
  else
    let (year, month, day) := get_date_from_daynr period
    (false, { ltime with year := year, month := month, day := day })

/-- The case of `date_add_interval` for `INTERVAL_YEAR`: the years are added to the `uint`
    year, and February 29 becomes February 28 out of a leap year. -/
def year (ltime : MYSQL_TIME) (sign : Int) (interval : INTERVAL) : Bool × MYSQL_TIME :=
  let ltime := { ltime with year := to_uint (ltime.year + sign * to_longlong interval.year) }
  if ltime.year ≥ 10000 then (true, ltime)
  else if ltime.month = 2 ∧ ltime.day = 29 ∧ calc_days_in_year ltime.year ≠ 366 then
    (false, { ltime with day := 28 })
  else (false, ltime)

/-- The case of `date_add_interval` for `INTERVAL_YEAR_MONTH`, `INTERVAL_QUARTER` and
    `INTERVAL_MONTH`: the months are added to the month index `year * 12 + month - 1`, and the
    day is cut to the length of the new month. -/
def month (ltime : MYSQL_TIME) (sign : Int) (interval : INTERVAL) : Bool × MYSQL_TIME :=
  let period := (to_uint (ltime.year * 12) : Int) + sign * to_longlong interval.year * 12 +
    ltime.month - 1 + sign * to_longlong interval.month
  if to_ulong period ≥ 120000 then (true, ltime)
  else
    let ltime := { ltime with
      year := to_uint (period.tdiv 12), month := to_uint (period.tmod 12) + 1 }
    -- Adjust day if the new month doesn't have enough days
    if ltime.day > days_in_month.getD (ltime.month - 1) 0 then
      let day := days_in_month.getD (ltime.month - 1) 0
      -- Leap-year
      (false, { ltime with
        day := if ltime.month = 2 ∧ calc_days_in_year ltime.year = 366 then day + 1 else day })
    else (false, ltime)

end date_add_interval

/-- `date_add_interval(ltime, int_type, interval)`: `true` when the result is not a date of
    the years 0 to 9999 (`invalid_date`) or the type is not one (`null_date`), and the time
    as the function leaves it. -/
def date_add_interval (ltime : MYSQL_TIME) (int_type : interval_type) (interval : INTERVAL) :
    Bool × MYSQL_TIME :=
  let ltime := { ltime with neg := false }
  match int_type with
  | INTERVAL_SECOND | INTERVAL_SECOND_MICROSECOND | INTERVAL_MICROSECOND | INTERVAL_MINUTE
  | INTERVAL_HOUR | INTERVAL_MINUTE_MICROSECOND | INTERVAL_MINUTE_SECOND
  | INTERVAL_HOUR_MICROSECOND | INTERVAL_HOUR_SECOND | INTERVAL_HOUR_MINUTE
  | INTERVAL_DAY_MICROSECOND | INTERVAL_DAY_SECOND | INTERVAL_DAY_MINUTE | INTERVAL_DAY_HOUR =>
    date_add_interval.time ltime interval.sign interval
  | INTERVAL_DAY | INTERVAL_WEEK => date_add_interval.days ltime interval.sign interval
  | INTERVAL_YEAR => date_add_interval.year ltime interval.sign interval
  | INTERVAL_YEAR_MONTH | INTERVAL_QUARTER | INTERVAL_MONTH =>
    date_add_interval.month ltime interval.sign interval
  | INTERVAL_LAST => (true, ltime)

/-- `Item_date_add_interval::get_date_internal` once `args[0]` has given the datetime
    `ltime`: `DATE_ADD(ltime, INTERVAL args[1] int_type)`, or `DATE_SUB` when
    `date_sub_interval`; `none` is SQL NULL. -/
def Item_date_add_interval.get_date_internal (ltime : MYSQL_TIME) (args1 : Item)
    (int_type : interval_type) (date_sub_interval : Bool) : Option MYSQL_TIME :=
  match get_interval_value args1 int_type with
  | none => none
  | some interval =>
    let interval := if date_sub_interval then { interval with neg := !interval.neg } else interval
    match date_add_interval ltime int_type interval with
    | (true, _) => none
    | (false, ltime) => some ltime


/-! ## Conversions -/

theorem to_longlong_of_lt {x : Int} (h0 : -2 ^ 63 ≤ x) (h : x < 2 ^ 63) : to_longlong x = x :=
  Int.bmod_eq_of_le (by norm_num; omega) (by norm_num; omega)

theorem to_ulong_of_lt {x : Int} (h0 : 0 ≤ x) (h : x < 2 ^ 64) : (to_ulong x : Int) = x := by
  rw [to_ulong, Int.emod_eq_of_lt h0 h, Int.toNat_of_nonneg h0]

theorem to_ulong_of_neg {x : Int} (h0 : -2 ^ 64 ≤ x) (h : x < 0) :
    (to_ulong x : Int) = x + 2 ^ 64 := by
  have hmod : x % 2 ^ 64 = x + 2 ^ 64 := by omega
  rw [to_ulong, hmod, Int.toNat_of_nonneg (by omega)]

/-- **The carries are floor division**: `days`, `sec` and `microseconds` split the total into
    whole days, seconds of the day in `[0, 86400)` and microseconds in `[0, 10^6)`. -/
theorem date_add_interval.carry_eq (microseconds sec : Int) :
    date_add_interval.carry microseconds sec =
      ((sec + microseconds / 1000000) / 86400, (sec + microseconds / 1000000) % 86400,
        microseconds % 1000000) := by
  have hus := Radix.tdiv_tmod_cases microseconds (b := 1000000) (by norm_num)
  have hsec := Radix.tdiv_tmod_cases (sec + microseconds / 1000000) (b := 86400) (by norm_num)
  have hdef := Int.tmod_def (sec + microseconds / 1000000) 86400
  unfold date_add_interval.carry
  dsimp only
  -- the borrow of the microseconds: `sec` takes the floor of the seconds
  have hborrow : (if microseconds.tmod 1000000 < 0 then
      (microseconds.tmod 1000000 + 1000000, sec + microseconds.tdiv 1000000 - 1)
      else (microseconds.tmod 1000000, sec + microseconds.tdiv 1000000)) =
      (microseconds % 1000000, sec + microseconds / 1000000) := by
    rcases hus with ⟨hm, hq, hr⟩ | ⟨hm, hq, hr⟩
    · rw [if_neg (by omega), hq, hr]
    · rw [if_pos hm, hq, hr, Prod.mk.injEq]
      omega
  rw [hborrow, show (3600 * 24 : Int) = 86400 from rfl]
  dsimp only
  -- the borrow of the seconds: the days are their floor
  rcases hsec with ⟨hs, hq, hr⟩ | ⟨hs, hq, hr⟩
  · rw [if_neg (show ¬ sec + microseconds / 1000000 -
      (sec + microseconds / 1000000).tdiv 86400 * 86400 < 0 by omega), hq]
    simp only [Prod.mk.injEq, true_and, and_true]
    omega
  · rw [if_pos (show sec + microseconds / 1000000 -
      (sec + microseconds / 1000000).tdiv 86400 * 86400 < 0 by omega), hq]
    simp only [Prod.mk.injEq, and_true]
    omega

/-! ## Exact calendar arithmetic -/

/-- The day number of a date: the days before its year and before its month, and its day. -/
def day_number (Y M D : Nat) : Nat := days_before_year Y + days_before_month Y M + D

/-- The microseconds from the start of day 0 to the datetime `t`. -/
def time_point (t : MYSQL_TIME) : Int :=
  (((day_number t.year t.month t.day * 24 + t.hour) * 60 + t.minute) * 60 + t.second) *
    1000000 + t.second_part

/-- The whole seconds of an interval. -/
def INTERVAL.seconds (interval : INTERVAL) : Nat :=
  interval.day * 86400 + interval.hour * 3600 + interval.minute * 60 + interval.second

/-- The signed length of an interval in microseconds. -/
def INTERVAL.length (interval : INTERVAL) : Int :=
  interval.sign * (interval.seconds * 1000000 + interval.second_part : Nat)

/-- A datetime of the years 1 to 9999 on a date of the calendar, its time of day in range. -/
structure Datetime_calendar (t : MYSQL_TIME) : Prop where
  date : Date_valid t.year t.month t.day
  valid : Datetime_valid t

theorem calc_daynr_eq_day_number {Y M D : Nat} (h : Date_valid Y M D) :
    calc_daynr Y M D = day_number Y M D :=
  calc_daynr_eq h.1 h.2.2.1 h.2.2.2.1 D

theorem month_length_le (Y M : Nat) : month_length Y M ≤ 31 := by
  unfold month_length
  split_ifs <;> omega

/-- The day numbers of the years 1 to 9999 end at 9999-12-31. -/
theorem day_number_le {Y M D : Nat} (h : Date_valid Y M D) : day_number Y M D ≤ 3652424 := by
  obtain ⟨hY1, hY, hM1, hM12, hD1, hD⟩ := h
  have hlen := days_before_month_add_length_le Y hM1 hM12
  have hstep : days_before_year (Y + 1) = days_before_year Y + year_length Y := rfl
  have hlast := days_before_year_mono (show Y + 1 ≤ 10000 by omega)
  rw [days_before_year_ten_thousand] at hlast
  unfold day_number
  omega

theorem INTERVAL.sign_cases (interval : INTERVAL) : interval.sign = 1 ∨ interval.sign = -1 := by
  unfold INTERVAL.sign
  split
  · exact .inr rfl
  · exact .inl rfl

/-- The sign times an amount is the amount or its negation. -/
theorem INTERVAL.sign_mul_bounds (interval : INTERVAL) (n : Nat) :
    -(n : Int) ≤ interval.sign * n ∧ interval.sign * n ≤ n := by
  rcases interval.sign_cases with h | h <;> rw [h] <;> omega

/-- Turning an interval round negates its length. -/
theorem INTERVAL.length_flip (interval : INTERVAL) :
    { interval with neg := !interval.neg }.length = -interval.length := by
  unfold INTERVAL.length INTERVAL.seconds INTERVAL.sign
  cases interval.neg <;> simp

/-- A day number of the years 1 to 9999 names a date of those years, whose day number it is. -/
theorem date_of_daynr {daynr : Int} (h1 : 366 ≤ daynr) (h2 : daynr ≤ 3652424) :
    ∃ Y M D, get_date_from_daynr daynr = (Y, M, D) ∧ Date_valid Y M D ∧
      (day_number Y M D : Int) = daynr := by
  have hv := date_valid_of_daynr h1 h2
  exact ⟨_, _, _, rfl, hv, (calc_daynr_eq_day_number hv).symm.trans (calc_daynr_of_date h1 h2)⟩

/-- The check `(ulonglong) daynr > MAX_DAY_NUMBER` on a day number that is not negative. -/
theorem to_ulong_gt_MAX_DAY_NUMBER {daynr : Int} (h0 : 0 ≤ daynr) (h : daynr < 2 ^ 64) :
    (to_ulong daynr : Int) > MAX_DAY_NUMBER ↔ 3652424 < daynr := by
  rw [to_ulong_of_lt h0 h, MAX_DAY_NUMBER]

/-! ## The cases of `date_add_interval` -/

/-- The types of the time case of `date_add_interval`: lengths of time, from microseconds to
    days with hours. -/
def time_types : List interval_type :=
  [INTERVAL_SECOND, INTERVAL_SECOND_MICROSECOND, INTERVAL_MICROSECOND, INTERVAL_MINUTE,
    INTERVAL_HOUR, INTERVAL_MINUTE_MICROSECOND, INTERVAL_MINUTE_SECOND,
    INTERVAL_HOUR_MICROSECOND, INTERVAL_HOUR_SECOND, INTERVAL_HOUR_MINUTE,
    INTERVAL_DAY_MICROSECOND, INTERVAL_DAY_SECOND, INTERVAL_DAY_MINUTE, INTERVAL_DAY_HOUR]

/-- The types of the month case: `INTERVAL_YEAR_MONTH`, `INTERVAL_QUARTER`, `INTERVAL_MONTH`. -/
def month_types : List interval_type := [INTERVAL_YEAR_MONTH, INTERVAL_QUARTER, INTERVAL_MONTH]

section Dispatch

variable {ltime : MYSQL_TIME} {interval : INTERVAL}

theorem date_add_interval_of_time {int_type : interval_type} (h : int_type ∈ time_types)
    (hneg : ltime.neg = false) :
    date_add_interval ltime int_type interval = date_add_interval.time ltime interval.sign interval := by
  have hself : { ltime with neg := false } = ltime := by rw [← hneg]
  simp only [time_types, List.mem_cons, List.not_mem_nil, or_false] at h
  rcases h with rfl | rfl | rfl | rfl | rfl | rfl | rfl | rfl | rfl | rfl | rfl | rfl | rfl | rfl <;>
    simp only [date_add_interval, hself]

theorem date_add_interval_of_month {int_type : interval_type} (h : int_type ∈ month_types)
    (hneg : ltime.neg = false) :
    date_add_interval ltime int_type interval = date_add_interval.month ltime interval.sign interval := by
  have hself : { ltime with neg := false } = ltime := by rw [← hneg]
  simp only [month_types, List.mem_cons, List.not_mem_nil, or_false] at h
  rcases h with rfl | rfl | rfl <;> simp only [date_add_interval, hself]

theorem date_add_interval_of_year (hneg : ltime.neg = false) :
    date_add_interval ltime INTERVAL_YEAR interval =
      date_add_interval.year ltime interval.sign interval := by
  have hself : { ltime with neg := false } = ltime := by rw [← hneg]
  simp only [date_add_interval, hself]

end Dispatch

/-- The time case leaves a DATETIME, in range or not. -/
theorem date_add_interval.time_time_type (ltime : MYSQL_TIME) (sign : Int) (interval : INTERVAL) :
    (date_add_interval.time ltime sign interval).2.time_type = MYSQL_TIMESTAMP_DATETIME := by
  unfold date_add_interval.time
  dsimp only
  split <;> rfl

/-- The hour, the minute and the second the time case reads off the seconds of a day. -/
theorem hms_of_sec {sec : Int} (h0 : 0 ≤ sec) (h : sec < 86400) :
    ((to_uint (sec.tdiv 3600) : Int) * 3600 + (to_uint ((sec.tdiv 60).tmod 60) : Int) * 60 +
      (to_uint (sec.tmod 60) : Int) = sec) ∧
    to_uint (sec.tdiv 3600) ≤ 23 ∧ to_uint ((sec.tdiv 60).tmod 60) ≤ 59 ∧
      to_uint (sec.tmod 60) ≤ 59 := by
  have hmin : (sec.tdiv 60).tmod 60 = sec / 60 % 60 := by
    rw [Int.tdiv_eq_ediv_of_nonneg h0, Int.tmod_eq_emod_of_nonneg (by omega)]
  rw [Int.tdiv_eq_ediv_of_nonneg h0, hmin, Int.tmod_eq_emod_of_nonneg h0,
    to_uint_of_lt (by omega) (by omega), to_uint_of_lt (by omega) (by omega),
    to_uint_of_lt (by omega) (by omega)]
  omega

/-- The seconds since the first of the month that the time case adds up, with no cast that
    wraps: those of the datetime, and the signed seconds of the interval. -/
theorem date_add_interval.sec_eq {ltime : MYSQL_TIME} {interval : INTERVAL} (sign : Int)
    (hD1 : 1 ≤ ltime.day) (hvalid : Datetime_valid ltime) (hsec : interval.seconds < 2 ^ 63) :
    (to_uint (((ltime.day : Int) - 1) * 3600) : Int) * 24 + to_uint (ltime.hour * 3600) +
        to_uint (ltime.minute * 60) + ltime.second +
      sign * to_longlong (interval.day * 3600 * 24 + interval.hour * 3600 +
        interval.minute * 60 + interval.second) =
    ((ltime.day : Int) - 1) * 86400 + ltime.hour * 3600 + ltime.minute * 60 + ltime.second +
      sign * interval.seconds := by
  have := hvalid.day; have := hvalid.hour; have := hvalid.minute
  have hS : to_longlong (interval.day * 3600 * 24 + interval.hour * 3600 +
      interval.minute * 60 + interval.second) = interval.seconds := by
    have hcast : (interval.day * 3600 * 24 + interval.hour * 3600 + interval.minute * 60 +
        interval.second : Int) = interval.seconds := by
      unfold INTERVAL.seconds
      push_cast
      ring
    rw [hcast, to_longlong_of_lt (by omega) (by omega)]
  have hday : (to_uint (((ltime.day : Int) - 1) * 3600) : Int) = (ltime.day - 1) * 3600 := by
    rw [to_uint_of_lt (by omega) (by omega)]
    omega
  have hhour : (to_uint (ltime.hour * 3600) : Int) = ltime.hour * 3600 := by
    rw [to_uint_of_lt (by omega) (by omega)]
    omega
  have hminute : (to_uint (ltime.minute * 60) : Int) = ltime.minute * 60 := by
    rw [to_uint_of_lt (by omega) (by omega)]
    omega
  rw [hS, hday, hhour, hminute]
  ring

/-- **The types of days and times add the exact length**: on a datetime of the years 1 to
    9999 and an interval whose seconds and microseconds stay below `2 ^ 62`, the result is the
    datetime the length of the interval later (or earlier), when it is one of 0001-01-01 to
    9999-12-31, and the function fails when it is past 9999-12-31. -/
theorem date_add_interval_time_exact {ltime : MYSQL_TIME} {int_type : interval_type}
    {interval : INTERVAL} (htype : int_type ∈ time_types) (ht : Datetime_calendar ltime)
    (hsec : interval.seconds < 2 ^ 62) (hus : interval.second_part < 2 ^ 62) :
    (366 * 86400000000 ≤ time_point ltime + interval.length →
      time_point ltime + interval.length < 3652425 * 86400000000 →
      ∃ t, date_add_interval ltime int_type interval = (false, t) ∧
        Datetime_calendar t ∧ time_point t = time_point ltime + interval.length) ∧
    (3652425 * 86400000000 ≤ time_point ltime + interval.length →
      (date_add_interval ltime int_type interval).1 = true) := by
  rw [date_add_interval_of_time htype ht.valid.neg]
  obtain ⟨⟨hY1, hY, hM1, hM12, hD1, hD⟩, hvalid⟩ := ht
  have := hvalid.day; have := hvalid.hour; have := hvalid.minute; have := hvalid.second
  have := hvalid.second_part
  -- the sign times the whole seconds and times the microseconds of the interval
  generalize hA : interval.sign * (interval.seconds : Int) = A
  generalize hB : interval.sign * (interval.second_part : Int) = B
  have hAb := interval.sign_mul_bounds interval.seconds
  have hBb := interval.sign_mul_bounds interval.second_part
  rw [hA] at hAb
  rw [hB] at hBb
  have hlen : interval.length = A * 1000000 + B := by
    rw [INTERVAL.length, ← hA, ← hB]
    push_cast
    ring
  -- the microseconds do not wrap either
  have hm0 : to_longlong (ltime.second_part + interval.sign * interval.second_part) =
      ltime.second_part + B := by
    rw [hB, to_longlong_of_lt (by omega) (by omega)]
  unfold date_add_interval.time
  rw [hm0, date_add_interval.sec_eq _ hD1 hvalid (by omega), hA]
  dsimp only
  rw [date_add_interval.carry_eq]
  dsimp only
  generalize hs : ((ltime.day : Int) - 1) * 86400 + ltime.hour * 3600 + ltime.minute * 60 +
    ltime.second + A + (ltime.second_part + B) / 1000000 = s
  -- the datetime is `s` seconds past the first of the month, and the microseconds
  have hc1 : calc_daynr ltime.year ltime.month 1 = day_number ltime.year ltime.month 1 :=
    calc_daynr_eq hY1 hM1 hM12 1
  have hdn : day_number ltime.year ltime.month ltime.day =
      day_number ltime.year ltime.month 1 + ltime.day - 1 := by
    unfold day_number
    omega
  have hpoint : time_point ltime + interval.length =
      ((calc_daynr ltime.year ltime.month 1 + s / 86400) * 86400 + s % 86400) * 1000000 +
        (ltime.second_part + B) % 1000000 := by
    rw [time_point, hlen, hc1, hdn]
    push_cast [show 1 ≤ day_number ltime.year ltime.month 1 + ltime.day by omega]
    omega
  have hsec0 : 0 ≤ s % 86400 := Int.emod_nonneg s (by norm_num)
  have hsec1 : s % 86400 < 86400 := Int.emod_lt_of_pos s (by norm_num)
  have hus0 : 0 ≤ (ltime.second_part + B) % 1000000 := Int.emod_nonneg _ (by norm_num)
  have hus1 : (ltime.second_part + B) % 1000000 < 1000000 := Int.emod_lt_of_pos _ (by norm_num)
  have hlast := day_number_le ⟨hY1, hY, hM1, hM12, hD1, hD⟩
  refine ⟨fun hlo hhi => ?_, fun hhi => ?_⟩
  · -- a day number of the years 1 to 9999: the date comes back from it
    have hdays : 366 ≤ calc_daynr ltime.year ltime.month 1 + s / 86400 ∧
        calc_daynr ltime.year ltime.month 1 + s / 86400 ≤ 3652424 := by
      omega
    rw [if_neg (by rw [to_ulong_gt_MAX_DAY_NUMBER (by omega) (by omega)]; omega)]
    obtain ⟨Y', M', D', hg, hv, hdn'⟩ := date_of_daynr hdays.1 hdays.2
    obtain ⟨hms, hh, hm, hse⟩ := hms_of_sec hsec0 hsec1
    have hsp : (to_uint ((ltime.second_part + B) % 1000000) : Int) =
        (ltime.second_part + B) % 1000000 := by
      rw [to_uint_of_lt hus0 (by omega)]
      omega
    rw [hg]
    refine ⟨_, rfl, ⟨hv, ?_⟩, ?_⟩
    · exact ⟨hvalid.neg, hv.2.1, hv.2.2.2.1, (hv.2.2.2.2.2).trans (month_length_le Y' M'), hh, hm,
        hse, by dsimp only; omega⟩
    · rw [time_point]
      dsimp only
      omega
  · -- past 9999-12-31
    have hfit : calc_daynr ltime.year ltime.month 1 + s / 86400 < 2 ^ 64 := by
      clear * - hs hAb hBb hsec hus hc1 hdn hlast hD hvalid
      have := hvalid.day; have := hvalid.hour; have := hvalid.minute; have := hvalid.second
      have := hvalid.second_part
      omega
    rw [if_pos (by rw [to_ulong_gt_MAX_DAY_NUMBER (by omega) hfit]; omega)]

example : date_add_interval ⟨2024, 12, 31, 23, 59, 59, 999999, false, MYSQL_TIMESTAMP_DATETIME⟩
    INTERVAL_MICROSECOND { second_part := 1 } =
    (false, ⟨2025, 1, 1, 0, 0, 0, 0, false, MYSQL_TIMESTAMP_DATETIME⟩) := by decide

/-- The day of the time case and the days case: the time of day in microseconds. -/
theorem time_point_eq (t : MYSQL_TIME) :
    time_point t = (day_number t.year t.month t.day : Int) * 86400000000 +
      (((t.hour * 3600 + t.minute * 60 + t.second) * 1000000 + t.second_part : Nat) : Int) := by
  unfold time_point
  push_cast
  ring

/-- The time of day of a datetime in range, in microseconds, is below one day. -/
theorem time_of_day_lt {t : MYSQL_TIME} (h : Datetime_valid t) :
    (t.hour * 3600 + t.minute * 60 + t.second) * 1000000 + t.second_part < 86400000000 := by
  have := h.hour; have := h.minute; have := h.second; have := h.second_part
  omega

/-- Every datetime of the calendar is a point of 0001-01-01 to 9999-12-31. -/
theorem time_point_range {t : MYSQL_TIME} (ht : Datetime_calendar t) :
    366 * 86400000000 ≤ time_point t ∧ time_point t < 3652425 * 86400000000 := by
  have hlast := day_number_le ht.date
  have hfirst : 366 ≤ day_number t.year t.month t.day := by
    obtain ⟨hY1, -, -, -, hD1, -⟩ := ht.date
    have hmono := days_before_year_mono hY1
    have h1 : days_before_year 1 = 365 := rfl
    unfold day_number
    omega
  have htod := time_of_day_lt ht.valid
  rw [time_point_eq]
  omega

/-- Two datetimes of the calendar at one time point, of one time type, are the same. -/
theorem time_point_inj {t t' : MYSQL_TIME} (ht : Datetime_calendar t)
    (ht' : Datetime_calendar t') (htype : t.time_type = t'.time_type)
    (h : time_point t = time_point t') : t = t' := by
  have htod := time_of_day_lt ht.valid
  have htod' := time_of_day_lt ht'.valid
  rw [time_point_eq, time_point_eq] at h
  -- a time of day is below a day, so the day numbers agree and then the times of day
  have hday : day_number t.year t.month t.day = day_number t'.year t'.month t'.day := by
    omega
  have hdate : (t.year, t.month, t.day) = (t'.year, t'.month, t'.day) := by
    rw [← date_of_calc_daynr ht.date, ← date_of_calc_daynr ht'.date,
      calc_daynr_eq_day_number ht.date, calc_daynr_eq_day_number ht'.date, hday]
  simp only [Prod.mk.injEq] at hdate
  have := ht.valid.minute; have := ht.valid.second; have := ht.valid.second_part
  have := ht'.valid.minute; have := ht'.valid.second; have := ht'.valid.second_part
  obtain ⟨hh, hm, hs, hsp⟩ : t.hour = t'.hour ∧ t.minute = t'.minute ∧
      t.second = t'.second ∧ t.second_part = t'.second_part := by
    omega
  have hneg : t.neg = t'.neg := ht.valid.neg.trans ht'.valid.neg.symm
  cases t
  cases t'
  simp only [MYSQL_TIME.mk.injEq]
  exact ⟨hdate.1, hdate.2.1, hdate.2.2, hh, hm, hs, hsp, hneg, htype⟩

theorem calc_days_in_year_eq_366 (Y : Nat) : calc_days_in_year Y = 366 ↔ leap_year Y := by
  rw [calc_days_in_year_eq, year_length]
  split_ifs with h <;> simp [h]

/-- The year case below 10000: the `uint` year `Y`, and February 29 cut to 28 out of a
    leap year. -/
theorem date_add_interval.year_of_lt {ltime : MYSQL_TIME} {sign : Int} {interval : INTERVAL}
    {Y : Nat} (hY : to_uint (ltime.year + sign * to_longlong interval.year) = Y) (h : Y < 10000) :
    date_add_interval.year ltime sign interval =
      (false, { ltime with
        year := Y,
        day := if ltime.month = 2 ∧ ltime.day = 29 ∧ ¬ leap_year Y then 28 else ltime.day }) := by
  unfold date_add_interval.year
  dsimp only
  rw [hY, if_neg (by omega)]
  by_cases hfeb : ltime.month = 2 ∧ ltime.day = 29 ∧ ¬ leap_year Y
  · rw [if_pos (by rw [Ne, calc_days_in_year_eq_366]; exact hfeb), if_pos hfeb]
  · rw [if_neg (by rw [Ne, calc_days_in_year_eq_366]; exact hfeb), if_neg hfeb]

/-- The year case fails from 10000 on. -/
theorem date_add_interval.year_of_ge {ltime : MYSQL_TIME} {sign : Int} {interval : INTERVAL}
    {Y : Nat} (hY : to_uint (ltime.year + sign * to_longlong interval.year) = Y)
    (h : 10000 ≤ Y) :
    (date_add_interval.year ltime sign interval).1 = true := by
  unfold date_add_interval.year
  dsimp only
  rw [hY, if_pos h]

/-- `DATE_ADD` once `get_interval_value` has read the interval: NULL exactly when
    `date_add_interval` fails. -/
theorem Item_date_add_interval.get_date_internal_of_value {ltime : MYSQL_TIME} {args : Item}
    {int_type : interval_type} {interval : INTERVAL}
    (h : get_interval_value args int_type = some interval) :
    Item_date_add_interval.get_date_internal ltime args int_type false =
      if (date_add_interval ltime int_type interval).1 then none
      else some (date_add_interval ltime int_type interval).2 := by
  unfold Item_date_add_interval.get_date_internal
  rw [h]
  dsimp only
  rw [if_neg Bool.false_ne_true]
  split <;> simp_all

/-- `DATE_SUB` once `get_interval_value` has read the interval: `date_add_interval` with the
    interval turned round. -/
theorem Item_date_add_interval.get_date_internal_sub_of_value {ltime : MYSQL_TIME} {args : Item}
    {int_type : interval_type} {interval : INTERVAL}
    (h : get_interval_value args int_type = some interval) :
    Item_date_add_interval.get_date_internal ltime args int_type true =
      if (date_add_interval ltime int_type { interval with neg := !interval.neg }).1 then none
      else some (date_add_interval ltime int_type { interval with neg := !interval.neg }).2 := by
  unfold Item_date_add_interval.get_date_internal
  rw [h]
  dsimp only
  rw [if_pos rfl]
  split <;> simp_all

/-! ## Wraps -/

/-- **`DATE_ADD` wraps a count of years at `2 ^ 32`**: adding `2 ^ 32 * k` years to a datetime
    returns the datetime itself, though the year it names is past 9999. The count goes to the
    `ulong` field `year` whole, and `ltime->year +=` keeps it modulo `2 ^ 32`. -/
theorem date_add_interval_year_wraps {ltime : MYSQL_TIME} (ht : Datetime_calendar ltime)
    {args : Item} {k : Nat} (hk : 0 < k) (hk' : k < 2 ^ 31)
    (hv : args.val_int = some (2 ^ 32 * (k : Int))) :
    Item_date_add_interval.get_date_internal ltime args INTERVAL_YEAR false = some ltime ∧
      9999 < ltime.year + 2 ^ 32 * k := by
  obtain ⟨⟨-, -, -, -, -, hD⟩, hvalid⟩ := ht
  have hY := hvalid.year
  -- `get_interval_value` stores the count whole
  have hcount : to_ulong (2 ^ 32 * k) = 2 ^ 32 * k := by
    have := to_ulong_of_lt (x := 2 ^ 32 * k) (by omega) (by omega)
    omega
  have hinterval : get_interval_value args INTERVAL_YEAR = some { year := 2 ^ 32 * k } := by
    rw [get_interval_value_of_val_int (by decide) (fun h => by cases h) hv,
      if_neg (show ¬ (2 ^ 32 * (k : Int) < 0) by omega)]
    simp only [get_interval_value.simple, hcount]
  generalize hI : ({ year := 2 ^ 32 * k } : INTERVAL) = interval at hinterval
  -- the year comes back unchanged, and so does a February 29
  have hyear : to_uint (ltime.year + interval.sign * to_longlong interval.year) = ltime.year := by
    rw [← hI, INTERVAL.sign, if_neg Bool.false_ne_true]
    dsimp only
    rw [to_longlong_of_lt (by omega) (by omega), to_uint]
    omega
  have hleap : ¬ (ltime.month = 2 ∧ ltime.day = 29 ∧ ¬ leap_year ltime.year) := by
    rintro ⟨hm, hd, hnot⟩
    rw [hm, hd] at hD
    simp [month_length, hnot] at hD
  refine ⟨?_, by omega⟩
  rw [Item_date_add_interval.get_date_internal_of_value hinterval,
    date_add_interval_of_year hvalid.neg, date_add_interval.year_of_lt hyear (by omega),
    if_neg hleap]
  rfl

theorem date_add_interval_year_wraps_leap_day :
    Datetime_calendar ⟨2024, 2, 29, 12, 0, 0, 0, false, MYSQL_TIMESTAMP_DATETIME⟩ ∧ 0 < 1 ∧
      1 < 2 ^ 31 ∧ (⟨0, some (2 ^ 32 * 1), none, none⟩ : Item).val_int = some (2 ^ 32 * 1) ∧
      (Item_date_add_interval.get_date_internal ⟨2024, 2, 29, 12, 0, 0, 0, false,
        MYSQL_TIMESTAMP_DATETIME⟩ ⟨0, some (2 ^ 32 * 1), none, none⟩ INTERVAL_YEAR false =
        some ⟨2024, 2, 29, 12, 0, 0, 0, false, MYSQL_TIMESTAMP_DATETIME⟩ ∧
      9999 < 2024 + 2 ^ 32 * 1) :=
  have ht : Datetime_calendar ⟨2024, 2, 29, 12, 0, 0, 0, false, MYSQL_TIMESTAMP_DATETIME⟩ :=
    ⟨by decide, ⟨rfl, by decide, by decide, by decide, by decide, by decide, by decide, by decide⟩⟩
  ⟨ht, by decide, by decide, rfl, date_add_interval_year_wraps ht (by decide) (by decide) rfl⟩

/-! ## The interval of the argument -/

example : Item_date_add_interval.get_date_internal
    ⟨2024, 2, 28, 23, 59, 59, 0, false, MYSQL_TIMESTAMP_DATETIME⟩
    ⟨0, none, none, some "1.5".toList⟩ INTERVAL_SECOND_MICROSECOND false =
      some ⟨2024, 2, 29, 0, 0, 0, 500000, false, MYSQL_TIMESTAMP_DATETIME⟩ := by
  decide

example : Item_date_add_interval.get_date_internal
    ⟨2024, 3, 1, 0, 0, 1, 0, false, MYSQL_TIMESTAMP_DATETIME⟩
    ⟨1, none, some (-1, -500000000), none⟩ INTERVAL_SECOND false =
      some ⟨2024, 2, 29, 23, 59, 59, 500000, false, MYSQL_TIMESTAMP_DATETIME⟩ := by
  decide

/-! ## `DATE_SUB` after `DATE_ADD` -/

/-- **`DATE_SUB` undoes `DATE_ADD` on the types of days and times**: from a DATETIME of the
    calendar, an interval below `2 ^ 62` seconds and microseconds that ends within 0001-01-01 to
    9999-12-31 leads to a datetime from which the interval turned round leads back. -/
theorem date_add_interval_time_round_trip {ltime : MYSQL_TIME} {int_type : interval_type}
    {interval : INTERVAL} (htype : int_type ∈ time_types) (ht : Datetime_calendar ltime)
    (hdt : ltime.time_type = MYSQL_TIMESTAMP_DATETIME)
    (hsec : interval.seconds < 2 ^ 62) (hus : interval.second_part < 2 ^ 62)
    (hlo : 366 * 86400000000 ≤ time_point ltime + interval.length)
    (hhi : time_point ltime + interval.length < 3652425 * 86400000000) :
    ∃ t, date_add_interval ltime int_type interval = (false, t) ∧
      date_add_interval t int_type { interval with neg := !interval.neg } = (false, ltime) := by
  obtain ⟨t, hrun, ht', hpoint⟩ := (date_add_interval_time_exact htype ht hsec hus).1 hlo hhi
  -- the interval turned round goes from `t` back to the point of `ltime`
  have hback : time_point t + { interval with neg := !interval.neg }.length = time_point ltime := by
    rw [INTERVAL.length_flip, hpoint]
    ring
  have hrange := time_point_range ht
  rw [← hback] at hrange
  -- the turned interval has the same seconds and microseconds
  have hsec' : { interval with neg := !interval.neg }.seconds < 2 ^ 62 := hsec
  have hus' : { interval with neg := !interval.neg }.second_part < 2 ^ 62 := hus
  obtain ⟨t'', hrun', ht'', hpoint''⟩ :=
    (date_add_interval_time_exact htype ht' hsec' hus').1 hrange.1 hrange.2
  have htt : t''.time_type = ltime.time_type := by
    have h := congrArg (fun r => r.2.time_type) hrun'
    rw [date_add_interval_of_time htype ht'.valid.neg, date_add_interval.time_time_type] at h
    exact h.symm.trans hdt.symm
  rw [time_point_inj ht'' ht htt (hpoint''.trans hback)] at hrun'
  exact ⟨t, hrun, hrun'⟩

end MyTime
end AliSql
