import Mathlib
import AliSql.Time.Daynr
import AliSql.Decimal.Parse

/-!
# `str_to_datetime`: text to a date and a time

`str_to_datetime` (`sql-common/my_time.c`) reads up to seven digit groups, year to
microseconds, from a string. Without delimiters (`YYYYMMDDHHMMSS`, the internal format) each
group has a fixed width; with them each group runs to the next delimiter. A group is summed in
an `unsigned long` and rejected only afterwards, when the sum passes `999999`. The sum wraps
modulo `2^64` on the way (`scan_digits_until_delim`), so a group of twenty digits can come back
as a small number and be taken as a year (`str_to_datetime_wraps_year`).

The model follows the function stage by stage: the digit scan (`scan_digits`), the delimiters
after a group (`skip_delimiters`), one round of the field loop (`field`), the loop itself on a
fuel of `MAX_DATE_PARTS - 1` rounds (each round moves `i` on), the start that decides the
format, and the end that fills `l_time` and checks it (`check_datetime_range`, `check_date`).
Pointers into the string are the rest of the string from where they point; `format_position`
is always `internal_format_positions`, whose tests the model keeps.
-/

set_option autoImplicit false

namespace AliSql
namespace MyTime

open enum_mysql_timestamp_type

def MAX_DATE_PARTS : Nat := 8
def YY_PART_YEAR : Nat := 70
def DATETIME_MAX_DECIMALS : Nat := 6
def TIME_MAX_HOUR : Nat := 838

def TIME_FUZZY_DATE : Nat := 1
def TIME_DATETIME_ONLY : Nat := 2
def TIME_NO_ZERO_IN_DATE : Nat := 65536 * 2 * 2 * 2 * 2 * 2 * 2 * 2
def TIME_NO_ZERO_DATE : Nat := TIME_NO_ZERO_IN_DATE * 2
def TIME_INVALID_DATES : Nat := TIME_NO_ZERO_DATE * 2

def MYSQL_TIME_WARN_TRUNCATED : Nat := 1
def MYSQL_TIME_WARN_OUT_OF_RANGE : Nat := 2
def MYSQL_TIME_WARN_ZERO_DATE : Nat := 8
def MYSQL_TIME_WARN_ZERO_IN_DATE : Nat := 32

/-- `log_10_int[]`: the powers of ten of a `ulonglong`. -/
def log_10_int : List Nat := (List.range 20).map (10 ^ ·)

/-- `internal_format_positions[]`: the part of `date[]` for year, month, day, hour, minute,
    second and fraction, and 255 for the AM/PM part that the format does not have. -/
def internal_format_positions : List Nat := [0, 1, 2, 3, 4, 5, 6, 255]

/-- `format_position[k]`; `format_position` always points to `internal_format_positions`. -/
def format_position (k : Nat) : Nat := internal_format_positions.getD k 255

/-- `MYSQL_TIME_STATUS`. -/
structure MYSQL_TIME_STATUS where
  warnings : Nat
  fractional_digits : Nat
  nanoseconds : Nat
  deriving DecidableEq, Repr

def my_time_status_init : MYSQL_TIME_STATUS := ⟨0, 0, 0⟩

/-- `set_zero_time(tm, time_type)`. -/
def set_zero_time (time_type : enum_mysql_timestamp_type) : MYSQL_TIME :=
  { year := 0, month := 0, day := 0, hour := 0, minute := 0, second := 0, second_part := 0,
    neg := false, time_type := time_type }

/-- `check_datetime_range(ltime)`: true when a part is out of its range. -/
def check_datetime_range (ltime : MYSQL_TIME) : Bool :=
  ltime.year > 9999 || ltime.month > 12 || ltime.day > 31 || ltime.minute > 59 ||
    ltime.second > 59 || ltime.second_part > 999999 ||
    ltime.hour > (if ltime.time_type = MYSQL_TIMESTAMP_TIME then TIME_MAX_HOUR else 23)

/-- `check_date(ltime, not_zero_date, flags, &was_cut)`: true for a date the flags reject,
    with the warning it stores in `was_cut`; `was_cut` is kept when the date passes. -/
def check_date (ltime : MYSQL_TIME) (not_zero_date : Bool) (flags was_cut : Nat) : Bool × Nat :=
  if not_zero_date then
    if ((flags &&& TIME_NO_ZERO_IN_DATE != 0) || !(flags &&& TIME_FUZZY_DATE != 0)) &&
        (ltime.month == 0 || ltime.day == 0) then
      (true, MYSQL_TIME_WARN_ZERO_IN_DATE)
    else if !(flags &&& TIME_INVALID_DATES != 0) && ltime.month != 0 &&
        ltime.day > days_in_month.getD (ltime.month - 1) 0 &&
        (ltime.month != 2 || calc_days_in_year ltime.year != 366 || ltime.day != 29) then
      (true, MYSQL_TIME_WARN_OUT_OF_RANGE)
    else (false, was_cut)
  else if flags &&& TIME_NO_ZERO_DATE != 0 then (true, MYSQL_TIME_WARN_ZERO_DATE)
  else (false, was_cut)

/-- `my_ispunct(&my_charset_latin1, c)`: the bit `_MY_PNT` of `ctype_latin1`. -/
def my_ispunct_latin1 (c : Char) : Bool :=
  ('!' ≤ c && c ≤ '/') || (':' ≤ c && c ≤ '@') || ('[' ≤ c && c ≤ '\x60') ||
    ('{' ≤ c && c ≤ '~') || c = '\x80' || c = '\x82' || ('\x84' ≤ c && c ≤ '\x89') ||
    c = '\x8b' || ('\x91' ≤ c && c ≤ '\x99') || c = '\x9b' || ('\xa1' ≤ c && c ≤ '\xbf') ||
    c = '\xd7' || c = '\xf7'

/-- **`check_date` is the calendar**: without `TIME_INVALID_DATES`, a date with a month and a
    day passes exactly when the day is in the month of the proleptic Gregorian calendar that
    `calc_daynr` counts. -/
theorem check_date_iff_month_length (t : MYSQL_TIME) {flags : Nat} (was_cut : Nat)
    (hm1 : 1 ≤ t.month) (hm12 : t.month ≤ 12) (hd1 : 1 ≤ t.day)
    (hinv : flags &&& TIME_INVALID_DATES = 0) :
    check_date t true flags was_cut = (false, was_cut) ↔ t.day ≤ month_length t.year t.month := by
  have hm0 : t.month ≠ 0 := by omega
  have hd0 : t.day ≠ 0 := by omega
  rw [month_length_eq t.year hm1 hm12]
  unfold check_date
  by_cases hl : leap_year t.year
  · have h366 : calc_days_in_year t.year = 366 := by rw [calc_days_in_year_eq]; exact if_pos hl
    by_cases h2 : t.month = 2
    · simp [days_in_month, hd0, hinv, h366, hl, h2]
      omega
    · simp [hm0, hd0, hinv, hl, h2]
  · have h365 : calc_days_in_year t.year = 365 := by rw [calc_days_in_year_eq]; exact if_neg hl
    simp [hm0, hd0, hinv, h365, hl]

/-! ## The field loop -/

/-- The variables of the field loop. `str` and `last_field_pos` are the rest of the input
    from where they point; `date` and `date_len` are the arrays. -/
structure Scan where
  str : List Char
  i : Nat
  date : Nat → Nat
  date_len : Nat → Nat
  field_length : Nat
  not_zero_date : Nat
  found_delimitier : Bool
  found_space : Bool
  last_field_pos : List Char
  add_hours : Nat

/-- How a round of the field loop ends. -/
inductive Scan_step
  /-- `DBUG_RETURN(1)` with `MYSQL_TIME_WARN_TRUNCATED`. -/
  | truncated
  /-- `break`. -/
  | brk (s : Scan)
  /-- `continue`, or the end of the body: the next round, after `i++`. -/
  | next (s : Scan)

namespace str_to_datetime

/-- The `while` that adds digits to `tmp_value`, an `unsigned long`: while
    `scan_until_delim`, or else while `--field_length`, a `uint`, is not 0. It returns where
    the digits end, `tmp_value` and `field_length`. -/
def scan_digits (scan_until_delim : Bool) : List Char → Nat → Nat → List Char × Nat × Nat
  | [], tmp_value, field_length => ([], tmp_value, field_length)
  | c :: str, tmp_value, field_length =>
    if my_isdigit_latin1 c then
      if scan_until_delim then
        scan_digits scan_until_delim str ((tmp_value * 10 + dig c) % 2 ^ 64) field_length
      else
        let field_length := (field_length + (2 ^ 32 - 1)) % 2 ^ 32
        if field_length != 0 then
          scan_digits scan_until_delim str ((tmp_value * 10 + dig c) % 2 ^ 64) field_length
        else (c :: str, tmp_value, field_length)
    else (c :: str, tmp_value, field_length)

/-- The `while` over punctuation and spaces after a field, with `found_space` and
    `found_delimitier`; `none` for a space where `allow_space` has no bit for field `i`. -/
def skip_delimiters (allow_space i : Nat) :
    List Char → Bool → Bool → Option (List Char × Bool × Bool)
  | [], found_space, found_delimitier => some ([], found_space, found_delimitier)
  | c :: str, found_space, found_delimitier =>
    if my_ispunct_latin1 c || my_isspace_latin1 c then
      if my_isspace_latin1 c then
        if allow_space &&& (1 <<< i) = 0 then none
        else skip_delimiters allow_space i str true true
      else skip_delimiters allow_space i str found_space true
    else some (c :: str, found_space, found_delimitier)

/-- After the fraction, with `i` past it: the AM/PM part, read only when
    `format_position[7] != 255`. An `a` or `A` before the `M` leaves by `continue`. -/
def am_pm (s : Scan) : Scan_step :=
  let done (s : Scan) : Scan_step := .next { s with last_field_pos := s.str, i := s.i + 1 }
  if format_position 7 != 255 then
    match s.str with
    | c0 :: c1 :: rest =>
      if c1 = 'M' ∨ c1 = 'm' then
        if c0 = 'p' ∨ c0 = 'P' then
          done { s with add_hours := 12, str := rest.dropWhile my_isspace_latin1 }
        else if c0 ≠ 'a' ∨ c0 ≠ 'A' then .next { s with i := s.i + 1 }
        else done { s with str := rest.dropWhile my_isspace_latin1 }
      else done s
    | _ => done s
  else done s

/-- The rest of a round of the field loop, after the digits of field `i`: the check of the
    sum against `999999` (made only now, after the whole group), the sum and the length
    stored, and what follows the group. -/
def after_digits (allow_space : Nat) (s : Scan) (str : List Char) (tmp_value len : Nat) :
    Scan_step :=
  if tmp_value > 999999 then .truncated
  else
    let s := { s with
      str := str
      date_len := Function.update s.date_len s.i len
      date := Function.update s.date s.i tmp_value
      not_zero_date := s.not_zero_date ||| tmp_value
      field_length := if format_position (s.i + 1) = 0 then 4 else 2
      last_field_pos := str }
    match str with
    | [] => .brk { s with i := s.i + 1 }
    | c :: rest =>
      if s.i = format_position 2 ∧ c = 'T' then .next { s with str := rest, i := s.i + 1 }
      else if s.i = format_position 5 then
        if c = '.' then
          .next { s with str := rest, last_field_pos := rest, field_length := 6, i := s.i + 1 }
        else if my_isdigit_latin1 c then .brk { s with i := s.i + 1 }
        else .next { s with i := s.i + 1 }
      else
        match skip_delimiters allow_space s.i str s.found_space s.found_delimitier with
        | none => .truncated
        | some (str, found_space, found_delimitier) =>
          let s := { s with
            str := str
            found_space := found_space
            found_delimitier := found_delimitier }
          if s.i = format_position 6 then am_pm { s with i := s.i + 1 }
          else .next { s with last_field_pos := str, i := s.i + 1 }

/-- One round of the field loop, at a digit: the digits of field `i`, to the delimiter or,
    in the internal format and for the fraction, to the field's width. -/
def field (is_internal_format : Bool) (allow_space : Nat) (s : Scan) : Scan_step :=
  match s.str with
  | [] => .brk s
  | c :: rest =>
    let scan_until_delim := !is_internal_format && s.i != format_position 6
    let (str, tmp_value, _) := scan_digits scan_until_delim rest (dig c) s.field_length
    after_digits allow_space s str tmp_value (s.str.length - str.length)

/-- The field loop, for at most `fuel` rounds: on while `i < MAX_DATE_PARTS - 1` and a digit
    follows. `none` for a return from inside it. -/
def scan_loop (is_internal_format : Bool) (allow_space : Nat) : Nat → Scan → Option Scan
  | 0, s => some s
  | fuel + 1, s =>
    match s.str with
    | c :: _ =>
      if s.i < MAX_DATE_PARTS - 1 ∧ my_isdigit_latin1 c then
        match field is_internal_format allow_space s with
        | .truncated => none
        | .brk s => some s
        | .next s => scan_loop is_internal_format allow_space fuel s
      else some s
    | [] => some s

/-- What the start of `str_to_datetime` decides: the format, the width of the first field,
    the field the loop starts at and the parts it skips; `none` for the return when only a
    date can be read and a datetime is asked for. -/
structure Start where
  is_internal_format : Bool
  year_length : Nat
  field_length : Nat
  start_loop : Nat
  date : Nat → Nat

/-- The start, at the first digit: the digits (and `T`s) of the first part, and the internal
    format when they end the string or a `.` follows. -/
def start (str : List Char) (flags : Nat) : Option Start :=
  let pos := str.dropWhile fun c => my_isdigit_latin1 c || c = 'T'
  let digits := str.length - pos.length
  if pos = [] ∨ pos.head? = some '.' then
    let year_length := if digits = 4 ∨ digits = 8 ∨ digits ≥ 14 then 4 else 2
    some ⟨true, year_length, year_length, 0, fun _ => 0⟩
  else
    let field_length := if format_position 0 = 0 then 4 else 2
    if format_position 0 ≥ 3 then
      -- the year after the time: a date, unless two numbers are apart
      let pos := (pos.dropWhile fun c => !my_isspace_latin1 c).dropWhile
        fun c => !my_isdigit_latin1 c
      if pos = [] then
        if flags &&& TIME_DATETIME_ONLY != 0 then none
        else some ⟨false, 0, field_length, 5, fun _ => 0⟩
      else some ⟨false, 0, field_length, 0, fun _ => 0⟩
    else some ⟨false, 0, field_length, 0, fun _ => 0⟩

/-- `allow_space`: spaces only after the last date part and after the fraction. -/
def allow_space : Nat :=
  let i := max (max (format_position 0) (format_position 1)) (format_position 2)
  ((1 <<< i) ||| (1 <<< format_position 6)) &&& (1 ||| 2 ||| 4 ||| 8 ||| 64)

/-- The rest of the string after the last field: the rounding digit of the nanoseconds after
    six fraction digits, then `MYSQL_TIME_WARN_TRUNCATED` for anything but spaces. -/
def trailing (str : List Char) (status : MYSQL_TIME_STATUS) : MYSQL_TIME_STATUS :=
  let (str, status) :=
    match str with
    | c :: rest =>
      if status.fractional_digits = 6 ∧ my_isdigit_latin1 c then
        (rest.dropWhile my_isdigit_latin1, { status with nanoseconds := 100 * dig c })
      else (str, status)
    | [] => (str, status)
  if str.any fun c => !my_isspace_latin1 c then
    { status with warnings := MYSQL_TIME_WARN_TRUNCATED }
  else status

end str_to_datetime

open str_to_datetime in
/-- `str_to_datetime(str, length, l_time, flags, status)`: whether it fails, `l_time` and
    `status`. A failure before `l_time` is filled only sets its `time_type`; a failure after
    it (`goto err`) sets it to zero. -/
def str_to_datetime (str : List Char) (l_time : MYSQL_TIME) (flags : Nat) :
    Bool × MYSQL_TIME × MYSQL_TIME_STATUS :=
  let status := my_time_status_init
  let truncated : Bool × MYSQL_TIME × MYSQL_TIME_STATUS :=
    (true, { l_time with time_type := MYSQL_TIMESTAMP_NONE },
      { status with warnings := MYSQL_TIME_WARN_TRUNCATED })
  let str := str.dropWhile my_isspace_latin1
  match str with
  | [] => truncated
  | c :: _ =>
  if !my_isdigit_latin1 c then truncated else
  match start str flags with
  | none => truncated
  | some st =>
  let s0 : Scan :=
    { str := str, i := st.start_loop, date := st.date,
      date_len := Function.update (fun _ => 0) (format_position 0) 0,
      field_length := st.field_length, not_zero_date := 0, found_delimitier := false,
      found_space := false, last_field_pos := str, add_hours := 0 }
  match scan_loop st.is_internal_format allow_space (MAX_DATE_PARTS - 1) s0 with
  | none => truncated
  | some s =>
  if s.found_delimitier && !s.found_space && (flags &&& TIME_DATETIME_ONLY != 0) then truncated
  else
  let str := s.last_field_pos
  let number_of_fields := s.i - st.start_loop
  -- the parts after the last one read are 0
  let date k := if s.i ≤ k ∧ k < MAX_DATE_PARTS then 0 else s.date k
  let date_len k := if s.i ≤ k ∧ k < MAX_DATE_PARTS then 0 else s.date_len k
  let err (status : MYSQL_TIME_STATUS) : Bool × MYSQL_TIME × MYSQL_TIME_STATUS :=
    (true, set_zero_time MYSQL_TIMESTAMP_ERROR, status)
  let fraction (frac_len : Nat) (value : Nat) : Nat :=
    if frac_len < 6 then
      value * log_10_int.getD (DATETIME_MAX_DECIMALS - frac_len) 0 % 2 ^ 32
    else value
  -- the parts, with the year's length, or `none` for a return
  let parts : Option (Nat × Nat × Nat × Nat × Nat × Nat × Nat × Nat × MYSQL_TIME_STATUS) :=
    if !st.is_internal_format then
      let year_length := date_len (format_position 0)
      if year_length = 0 then none
      else
        let frac_pos := format_position 6
        let frac_len := date_len frac_pos
        let hour := date (format_position 3)
        some (year_length, date (format_position 0), date (format_position 1),
          date (format_position 2), hour, date (format_position 4), date (format_position 5),
          fraction frac_len (date frac_pos), { status with fractional_digits := frac_len })
    else
      some (st.year_length, date 0, date 1, date 2, date 3, date 4, date 5,
        fraction (date_len 6) (date 6), { status with fractional_digits := date_len 6 })
  match parts with
  | none => truncated
  | some (year_length, year, month, day, hour, minute, second, second_part, status) =>
  -- the hour of an AM/PM time
  if format_position 7 != 255 ∧ !st.is_internal_format ∧ hour > 12 then
    err { status with warnings := MYSQL_TIME_WARN_TRUNCATED }
  else
  let hour := if format_position 7 != 255 ∧ !st.is_internal_format then
    hour % 12 + s.add_hours else hour
  let year := if year_length = 2 ∧ s.not_zero_date ≠ 0 then
    year + (if year < YY_PART_YEAR then 2000 else 1900) else year
  let l_time : MYSQL_TIME :=
    { year := year, month := month, day := day, hour := hour, minute := minute,
      second := second, second_part := second_part, neg := false,
      time_type := if number_of_fields ≤ 3 then MYSQL_TIMESTAMP_DATE
        else MYSQL_TIMESTAMP_DATETIME }
  if number_of_fields < 3 || check_datetime_range l_time then
    -- a zero date warns only for something other than spaces after it
    let not_zero_date := if s.not_zero_date = 0 then
      (if str.any fun c => !my_isspace_latin1 c then 1 else 0) else s.not_zero_date
    err { status with warnings := status.warnings |||
      (if not_zero_date ≠ 0 then MYSQL_TIME_WARN_TRUNCATED else MYSQL_TIME_WARN_ZERO_DATE) }
  else
  let (bad, warnings) := check_date l_time (s.not_zero_date ≠ 0) flags status.warnings
  if bad then err { status with warnings := warnings }
  else (false, l_time, trailing str status)

/-! ## A field is its digits modulo `2^64` -/

namespace str_to_datetime

theorem dig_lt (c : Char) : dig c < 2 ^ 64 := by
  have := c.val.toNat_lt
  simp only [dig, Char.toNat]
  omega

/-- **The scan sums a group in an `unsigned long`**: read to its delimiter, a digit group
    comes out as its value modulo `2^64`. The induction is on the digits. -/
theorem scan_digits_until_delim (ds : List Char) {rest : List Char}
    (hds : ∀ c ∈ ds, my_isdigit_latin1 c = true)
    (hrest : ∀ c ∈ rest.head?, my_isdigit_latin1 c = false) (t field_length : Nat) :
    scan_digits true (ds ++ rest) (t % 2 ^ 64) field_length =
      (rest, Nat.ofDigitChars 10 ds t % 2 ^ 64, field_length) := by
  induction ds generalizing t with
  | nil =>
    cases rest with
    | nil => rfl
    | cons c rest =>
      have hc := hrest c rfl
      simp [scan_digits, hc]
  | cons c ds ih =>
    have hc := hds c List.mem_cons_self
    have hstep : (t % 2 ^ 64 * 10 + dig c) % 2 ^ 64 = (10 * t + (c.toNat - '0'.toNat)) % 2 ^ 64 := by
      unfold dig
      omega
    rw [List.cons_append, scan_digits, if_pos hc, if_pos rfl, hstep,
      ih (fun c hc => hds c (List.mem_cons_of_mem _ hc)), Nat.ofDigitChars_cons]

/-- A round at a group read to its delimiter goes on with the group's value modulo `2^64`
    and its length. -/
theorem field_until_delim {is_internal_format : Bool} {allow_space : Nat} {s : Scan}
    {ds rest : List Char} (hstr : s.str = ds ++ rest) (hne : ds ≠ [])
    (hds : ∀ c ∈ ds, my_isdigit_latin1 c = true)
    (hrest : ∀ c ∈ rest.head?, my_isdigit_latin1 c = false)
    (hscan : (!is_internal_format && s.i != format_position 6) = true) :
    field is_internal_format allow_space s =
      after_digits allow_space s rest (Nat.ofDigitChars 10 ds 0 % 2 ^ 64) ds.length := by
  obtain ⟨c, cs, rfl⟩ := List.exists_cons_of_ne_nil hne
  have hcs : ∀ d ∈ cs, my_isdigit_latin1 d = true := fun d hd => hds d (List.mem_cons_of_mem _ hd)
  have hscan' := scan_digits_until_delim cs hcs hrest (dig c) s.field_length
  rw [Nat.mod_eq_of_lt (dig_lt c)] at hscan'
  unfold field
  rw [hstr, List.cons_append]
  dsimp only
  rw [hscan, hscan', Nat.ofDigitChars_cons]
  have hlen : (c :: (cs ++ rest)).length - rest.length = (c :: cs).length := by simp; omega
  simp only [hlen, dig, Nat.mul_zero, Nat.zero_add]

/-- A first group of digits that a delimiter follows starts the delimited format at the
    year, whatever its length. -/
theorem start_of_delimited {ds rest : List Char} (hds : ∀ c ∈ ds, my_isdigit_latin1 c = true)
    {c : Char} (hc : my_isdigit_latin1 c = false) (hT : c ≠ 'T') (hdot : c ≠ '.') (flags : Nat) :
    start (ds ++ c :: rest) flags = some ⟨false, 0, 4, 0, fun _ => 0⟩ := by
  have hpos : (ds ++ c :: rest).dropWhile (fun c => my_isdigit_latin1 c || c = 'T') = c :: rest := by
    rw [List.dropWhile_append_of_pos (fun a ha => by simp [hds a ha]),
      List.dropWhile_cons_of_neg (by simp [hc, hT])]
  unfold start
  simp only [hpos, reduceCtorEq, List.head?_cons, Option.some.injEq, hdot, or_self, if_false]
  rfl

/-- **Short groups are read exactly**: a group of at most 19 digits is below `2^64`, so the
    round goes on with its value; only a group of 20 digits or more can wrap. -/
theorem field_until_delim_of_short {is_internal_format : Bool} {allow_space : Nat} {s : Scan}
    {ds rest : List Char} (hstr : s.str = ds ++ rest) (hne : ds ≠ [])
    (hds : ∀ c ∈ ds, my_isdigit_latin1 c = true)
    (hrest : ∀ c ∈ rest.head?, my_isdigit_latin1 c = false)
    (hscan : (!is_internal_format && s.i != format_position 6) = true) (hshort : ds.length ≤ 19) :
    field is_internal_format allow_space s =
      after_digits allow_space s rest (Nat.ofDigitChars 10 ds 0) ds.length := by
  have hlt := ofDigitChars_lt ds hds 0
  have hpow : 10 ^ ds.length ≤ 10 ^ 19 := Nat.pow_le_pow_right (by omega) hshort
  rw [field_until_delim hstr hne hds hrest hscan, Nat.mod_eq_of_lt (by omega)]

end str_to_datetime

/-- The twenty digits of `2^64 + 2024` are read as the year 2024: the string passes, as
    2024-01-01, though its year group denotes a number far past `999999`. -/
theorem str_to_datetime_wraps_year :
    str_to_datetime "18446744073709553640-01-01".toList (set_zero_time MYSQL_TIMESTAMP_NONE) 0 =
      (false, { set_zero_time MYSQL_TIMESTAMP_DATE with year := 2024, month := 1, day := 1 },
        my_time_status_init) ∧
    Nat.ofDigitChars 10 "18446744073709553640".toList 0 = 2 ^ 64 + 2024 := by
  decide

end MyTime
end AliSql
