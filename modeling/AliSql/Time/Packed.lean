import Mathlib
import AliSql.Include.Myisampack
import AliSql.Libc.Basic

/-!
# `sql-common/my_time.c`: packed TIME and DATETIME, in memory and on disk

A `MYSQL_TIME` is packed into one `longlong` whose bit fields hold its parts, and the
packed number is written to disk in `myisampack.h` order after adding an offset that
makes every value non-negative, so that `memcmp` on the images sorts them. This module
models the packers and the disk format and proves the two round trips and the two
order facts:

* DATETIME (`TIME_to_longlong_datetime_packed`): `year * 13 + month` in 17 bits, then
  day, hour, minute and second in 5, 5, 6 and 6 bits, then 24 bits of microseconds. On
  the checked ranges the packed value is a mixed-radix number with the fields as its
  digits (`TIME_to_longlong_datetime_packed_eq`), so unpacking restores every field and
  the packed values sort as the field tuples (`Radix.compare_horner`). On disk
  (`my_datetime_packed_to_binary`) the 40-bit integer part is offset by `2^39` and the
  fraction follows in 0 to 3 bytes; the fraction is read back sign-extended.
* TIME (`TIME_to_longlong_time_packed`): `hour << 12 | minute << 6 | second` and the
  microseconds, negated for a negative time. On disk (`my_time_packed_to_binary`) the
  integer part `nr >> 24` is the floor of the packed value, the fraction its truncated
  remainder, stored in two's complement; the reader undoes that when the integer part
  is negative and the fraction is not zero. The image is a big-endian number equal to
  an offset plus the sign-magnitude value of the time at the precision
  (`time_binary_value`), which is what makes the images sort as the signed values
  (`Radix.compare_signMag`).

The `longlong` arithmetic of the source is modelled on `Int`: for years up to 9999 and the
other parts in the ranges `check_datetime_range` admits no intermediate value leaves 63 bits,
so wrap-around is not modelled; the
shifts and remainders keep C's meaning (`x >> 24` rounds down, `%` truncates). A field
of type `unsigned int` or `unsigned long` that receives a `longlong` takes it modulo
`2^32` or `2^64` (`to_uint`, `to_ulong`).
-/

set_option autoImplicit false

namespace AliSql
namespace MyTime

open Radix

/-- `enum enum_mysql_timestamp_type` of `include/mysql_time.h`. -/
inductive enum_mysql_timestamp_type
  | MYSQL_TIMESTAMP_NONE
  | MYSQL_TIMESTAMP_ERROR
  | MYSQL_TIMESTAMP_DATE
  | MYSQL_TIMESTAMP_DATETIME
  | MYSQL_TIMESTAMP_TIME
  deriving DecidableEq, Repr

open enum_mysql_timestamp_type

/-- `MYSQL_TIME`: the broken-down time the server passes around. -/
structure MYSQL_TIME where
  year : Nat
  month : Nat
  day : Nat
  hour : Nat
  minute : Nat
  second : Nat
  second_part : Nat
  neg : Bool
  time_type : enum_mysql_timestamp_type
  deriving DecidableEq, Repr

/-- A `longlong` stored into an `unsigned int`. -/
def to_uint (x : Int) : Nat := (x % 2 ^ 32).toNat

/-- A `longlong` stored into an `unsigned long`. -/
def to_ulong (x : Int) : Nat := (x % 2 ^ 64).toNat

/-- A value that fits an `unsigned int` is stored as it is. -/
theorem to_uint_of_lt {x : Int} (h0 : 0 ≤ x) (h : x < 2 ^ 32) : to_uint x = x.toNat := by
  rw [to_uint, Int.emod_eq_of_lt h0 h]

/-! ## The packed number -/

/-- `MY_PACKED_TIME_GET_INT_PART(x)`: `x >> 24`, rounding down. -/
def MY_PACKED_TIME_GET_INT_PART (x : Int) : Int := x >>> (24 : Nat)

/-- `MY_PACKED_TIME_GET_FRAC_PART(x)`: `x % (1LL << 24)`, with C's truncated remainder. -/
def MY_PACKED_TIME_GET_FRAC_PART (x : Int) : Int := x.tmod (2 ^ 24)

/-- `MY_PACKED_TIME_MAKE(i, f)`: `(i << 24) + f`. -/
def MY_PACKED_TIME_MAKE (i f : Int) : Int := i * 2 ^ 24 + f

/-- `MY_PACKED_TIME_MAKE_INT(i)`: `i << 24`. -/
def MY_PACKED_TIME_MAKE_INT (i : Int) : Int := i * 2 ^ 24

/-- `TIME_to_longlong_datetime_packed`. -/
def TIME_to_longlong_datetime_packed (ltime : MYSQL_TIME) : Int :=
  let ymd : Nat := ((ltime.year * 13 + ltime.month) <<< 5) ||| ltime.day
  let hms : Nat := (ltime.hour <<< 12) ||| (ltime.minute <<< 6) ||| ltime.second
  let tmp := MY_PACKED_TIME_MAKE ((ymd <<< 17) ||| hms : Nat) ltime.second_part
  if ltime.neg then -tmp else tmp

/-- `TIME_from_longlong_datetime_packed`. -/
def TIME_from_longlong_datetime_packed (tmp : Int) : MYSQL_TIME :=
  let neg := decide (tmp < 0)
  let tmp := if neg then -tmp else tmp
  let ymdhms := MY_PACKED_TIME_GET_INT_PART tmp
  let ymd := ymdhms >>> (17 : Nat)
  let ym := ymd >>> (5 : Nat)
  let hms := ymdhms.tmod (2 ^ 17)
  { year := to_uint (ym.tdiv 13)
    month := to_uint (ym.tmod 13)
    day := to_uint (ymd.tmod (2 ^ 5))
    hour := to_uint (hms >>> (12 : Nat))
    minute := to_uint ((hms >>> (6 : Nat)).tmod (2 ^ 6))
    second := to_uint (hms.tmod (2 ^ 6))
    second_part := to_ulong (MY_PACKED_TIME_GET_FRAC_PART tmp)
    neg := neg
    time_type := MYSQL_TIMESTAMP_DATETIME }

/-- `TIME_to_longlong_time_packed`: a time with a zero month has its days folded into
    the hours. -/
def TIME_to_longlong_time_packed (ltime : MYSQL_TIME) : Int :=
  let hms : Nat :=
    (((if ltime.month ≠ 0 then 0 else ltime.day * 24) + ltime.hour) <<< 12) |||
      (ltime.minute <<< 6) ||| ltime.second
  let tmp := MY_PACKED_TIME_MAKE hms ltime.second_part
  if ltime.neg then -tmp else tmp

/-- `TIME_from_longlong_time_packed`. -/
def TIME_from_longlong_time_packed (tmp : Int) : MYSQL_TIME :=
  let neg := decide (tmp < 0)
  let tmp := if neg then -tmp else tmp
  let hms := MY_PACKED_TIME_GET_INT_PART tmp
  { year := 0
    month := 0
    day := 0
    hour := to_uint (hms >>> (12 : Nat)) % 2 ^ 10
    minute := to_uint (hms >>> (6 : Nat)) % 2 ^ 6
    second := to_uint hms % 2 ^ 6
    second_part := to_ulong (MY_PACKED_TIME_GET_FRAC_PART tmp)
    neg := neg
    time_type := MYSQL_TIMESTAMP_TIME }

/-! ## The disk format -/

/-- `TIMEF_OFS`. -/
def TIMEF_OFS : Int := 0x800000000000
/-- `TIMEF_INT_OFS`. -/
def TIMEF_INT_OFS : Int := 0x800000
/-- `DATETIMEF_INT_OFS`. -/
def DATETIMEF_INT_OFS : Int := 0x8000000000

/-- `my_time_binary_length`. -/
def my_time_binary_length (dec : Nat) : Nat := 3 + (dec + 1) / 2

/-- `my_datetime_binary_length`. -/
def my_datetime_binary_length (dec : Nat) : Nat := 5 + (dec + 1) / 2

/-- `my_timestamp_binary_length`. -/
def my_timestamp_binary_length (dec : Nat) : Nat := 4 + (dec + 1) / 2

/-- `my_time_packed_to_binary`: the bytes written at `ptr`. -/
def my_time_packed_to_binary (nr : Int) (dec : Nat) : List UInt8 :=
  match dec with
  | 1 | 2 =>
    mi_int3store (TIMEF_INT_OFS + MY_PACKED_TIME_GET_INT_PART nr) ++
      [uchar_of ((MY_PACKED_TIME_GET_FRAC_PART nr).tdiv 10000)]
  | 4 | 3 =>
    mi_int3store (TIMEF_INT_OFS + MY_PACKED_TIME_GET_INT_PART nr) ++
      mi_int2store ((MY_PACKED_TIME_GET_FRAC_PART nr).tdiv 100)
  | 5 | 6 => mi_int6store (nr + TIMEF_OFS)
  | _ => mi_int3store (TIMEF_INT_OFS + MY_PACKED_TIME_GET_INT_PART nr)

/-- `my_time_packed_from_binary`. A negative value with a fraction was stored with the
    integer part rounded down and the fraction in two's complement; the reader shifts
    to the next integer and subtracts the fraction's complement. -/
def my_time_packed_from_binary (ptr : List UInt8) (dec : Nat) : Int :=
  match dec with
  | 1 | 2 =>
    let intpart : Int := (mi_uint3korr ptr : Int) - TIMEF_INT_OFS
    let frac : Int := (ptr.getD 3 0).toNat
    let (intpart, frac) :=
      if intpart < 0 ∧ frac ≠ 0 then (intpart + 1, frac - 0x100) else (intpart, frac)
    MY_PACKED_TIME_MAKE intpart (frac * 10000)
  | 3 | 4 =>
    let intpart : Int := (mi_uint3korr ptr : Int) - TIMEF_INT_OFS
    let frac : Int := mi_uint2korr (ptr.drop 3)
    let (intpart, frac) :=
      if intpart < 0 ∧ frac ≠ 0 then (intpart + 1, frac - 0x10000) else (intpart, frac)
    MY_PACKED_TIME_MAKE intpart (frac * 100)
  | 5 | 6 => (mi_uint6korr ptr : Int) - TIMEF_OFS
  | _ => MY_PACKED_TIME_MAKE_INT ((mi_uint3korr ptr : Int) - TIMEF_INT_OFS)

/-- `my_datetime_packed_to_binary`: the bytes written at `ptr`. -/
def my_datetime_packed_to_binary (nr : Int) (dec : Nat) : List UInt8 :=
  mi_int5store (MY_PACKED_TIME_GET_INT_PART nr + DATETIMEF_INT_OFS) ++
    match dec with
    | 1 | 2 => [uchar_of ((MY_PACKED_TIME_GET_FRAC_PART nr).tdiv 10000)]
    | 3 | 4 => mi_int2store ((MY_PACKED_TIME_GET_FRAC_PART nr).tdiv 100)
    | 5 | 6 => mi_int3store (MY_PACKED_TIME_GET_FRAC_PART nr)
    | _ => []

/-- `my_datetime_packed_from_binary`: the fraction is read sign-extended. -/
def my_datetime_packed_from_binary (ptr : List UInt8) (dec : Nat) : Int :=
  let intpart : Int := (mi_uint5korr ptr : Int) - DATETIMEF_INT_OFS
  match dec with
  | 1 | 2 => MY_PACKED_TIME_MAKE intpart (mi_sint1korr (ptr.drop 5) * 10000)
  | 3 | 4 => MY_PACKED_TIME_MAKE intpart (mi_sint2korr (ptr.drop 5) * 100)
  | 5 | 6 => MY_PACKED_TIME_MAKE intpart (mi_sint3korr (ptr.drop 5))
  | _ => MY_PACKED_TIME_MAKE_INT intpart

/-! ## Bit fields as arithmetic -/

/-- `hour << 12 | minute << 6 | second` adds the fields. -/
theorem hms_eq {h m s : Nat} (hm : m < 64) (hs : s < 64) :
    (h <<< 12) ||| (m <<< 6) ||| s = (h * 64 + m) * 64 + s := by
  have h₁ : (h <<< 12) ||| (m <<< 6) = h * 2 ^ 12 + m * 2 ^ 6 := by
    rw [or_eq_add (k := 12) (by rw [Nat.shiftLeft_eq]; exact Nat.dvd_mul_left _ _)
      (by rw [Nat.shiftLeft_eq]; omega), Nat.shiftLeft_eq, Nat.shiftLeft_eq]
  rw [h₁, or_eq_add (k := 6) ⟨h * 64 + m, by omega⟩ (by omega)]
  omega

/-- A field shifted past a smaller one and or-ed with it. -/
theorem shift_or_eq {a b k : Nat} (hb : b < 2 ^ k) : (a <<< k) ||| b = a * 2 ^ k + b := by
  rw [or_eq_add (by rw [Nat.shiftLeft_eq]; exact Nat.dvd_mul_left _ _) hb, Nat.shiftLeft_eq]

/-! ## DATETIME in memory -/

/-- The ranges of a non-negative datetime that `check_datetime_range` accepts. -/
structure Datetime_valid (t : MYSQL_TIME) : Prop where
  neg : t.neg = false
  year : t.year ≤ 9999
  month : t.month ≤ 12
  day : t.day ≤ 31
  hour : t.hour ≤ 23
  minute : t.minute ≤ 59
  second : t.second ≤ 59
  second_part : t.second_part ≤ 999999

/-- The fields below the year, each with its radix in the packed number. -/
def datetime_digits (t : MYSQL_TIME) : List (Nat × Nat) :=
  [(13, t.month), (32, t.day), (32, t.hour), (64, t.minute), (64, t.second),
    (2 ^ 24, t.second_part)]

/-- The seven fields of a datetime, most significant first. -/
def datetime_fields (t : MYSQL_TIME) : List Nat :=
  [t.year, t.month, t.day, t.hour, t.minute, t.second, t.second_part]

theorem Datetime_valid.fits {t : MYSQL_TIME} (h : Datetime_valid t) :
    Fits (datetime_digits t) := by
  have := h.month; have := h.day; have := h.hour; have := h.minute; have := h.second
  have := h.second_part
  intro p hp
  simp only [datetime_digits, List.mem_cons, List.not_mem_nil, or_false] at hp
  rcases hp with rfl | rfl | rfl | rfl | rfl | rfl <;> simp only <;> omega

/-- The integer part of a packed datetime: date and time of day without the fraction. -/
def datetime_int_part (t : MYSQL_TIME) : Nat :=
  ((((t.year * 13 + t.month) * 32 + t.day) * 32 + t.hour) * 64 + t.minute) * 64 + t.second

/-- **The packed datetime is a mixed-radix number** whose digits are the fields. -/
theorem TIME_to_longlong_datetime_packed_eq {t : MYSQL_TIME} (h : Datetime_valid t) :
    TIME_to_longlong_datetime_packed t = (datetime_int_part t * 2 ^ 24 + t.second_part : Nat) ∧
      TIME_to_longlong_datetime_packed t = horner t.year (datetime_digits t) := by
  have := h.day; have := h.hour; have := h.minute; have := h.second
  have hymd : ((t.year * 13 + t.month) <<< 5) ||| t.day = (t.year * 13 + t.month) * 32 + t.day :=
    shift_or_eq (k := 5) (by omega)
  have hhms := hms_eq (h := t.hour) (show t.minute < 64 by omega) (show t.second < 64 by omega)
  have hall : ((((t.year * 13 + t.month) * 32 + t.day) <<< 17) |||
      ((t.hour * 64 + t.minute) * 64 + t.second)) = datetime_int_part t := by
    rw [shift_or_eq (by omega), datetime_int_part]
    omega
  have hpacked : TIME_to_longlong_datetime_packed t =
      (datetime_int_part t * 2 ^ 24 + t.second_part : Nat) := by
    rw [TIME_to_longlong_datetime_packed, h.neg]
    simp only [Bool.false_eq_true, ↓reduceIte, MY_PACKED_TIME_MAKE, hymd, hhms, hall]
    push_cast
    rfl
  refine ⟨hpacked, ?_⟩
  rw [hpacked]
  simp only [datetime_digits, horner, datetime_int_part]

/-- **Unpacking restores the datetime**: all seven fields, the sign, and the type set to
    `MYSQL_TIMESTAMP_DATETIME`. -/
theorem TIME_from_longlong_datetime_packed_packed {t : MYSQL_TIME} (h : Datetime_valid t) :
    TIME_from_longlong_datetime_packed (TIME_to_longlong_datetime_packed t) =
      { t with time_type := MYSQL_TIMESTAMP_DATETIME } := by
  rw [(TIME_to_longlong_datetime_packed_eq h).1]
  obtain ⟨hneg, hy, hmo, hd, hh, hmi, hs, hf⟩ := h
  -- The packed value is non-negative: its parts are a quotient and a remainder.
  have hparts : MY_PACKED_TIME_GET_INT_PART (datetime_int_part t * 2 ^ 24 + t.second_part : Nat) =
        (datetime_int_part t : Int) ∧
      MY_PACKED_TIME_GET_FRAC_PART (datetime_int_part t * 2 ^ 24 + t.second_part : Nat) =
        (t.second_part : Int) := by
    rw [MY_PACKED_TIME_GET_INT_PART, MY_PACKED_TIME_GET_FRAC_PART, Int.shiftRight_eq_div_pow,
      Int.tmod_eq_emod_of_nonneg (by omega)]
    omega
  have hnn : decide (((datetime_int_part t * 2 ^ 24 + t.second_part : Nat) : Int) < 0) = false :=
    decide_eq_false (by omega)
  simp only [TIME_from_longlong_datetime_packed, hnn, Bool.false_eq_true, ↓reduceIte,
    hparts.1, hparts.2]
  simp only [Int.shiftRight_eq_div_pow, Nat.reducePow, Nat.cast_ofNat]
  simp (disch := omega) only [Int.tmod_eq_emod_of_nonneg, Int.tdiv_eq_ediv_of_nonneg]
  simp only [to_uint, to_ulong, datetime_int_part]
  rcases t with ⟨y, mo, d, hr, mi, s, f, neg, tt⟩
  simp only [MYSQL_TIME.mk.injEq] at hneg hy hmo hd hh hmi hs hf ⊢
  refine ⟨?_, ?_, ?_, ?_, ?_, ?_, ?_, hneg.symm, trivial⟩ <;> omega

/-- **Packed datetimes sort as their fields**, lexicographically. -/
theorem compare_datetime_packed {a b : MYSQL_TIME} (ha : Datetime_valid a) (hb : Datetime_valid b) :
    compare (TIME_to_longlong_datetime_packed a) (TIME_to_longlong_datetime_packed b) =
      compare (datetime_fields a) (datetime_fields b) := by
  rw [(TIME_to_longlong_datetime_packed_eq ha).2, (TIME_to_longlong_datetime_packed_eq hb).2,
    compare_natCast,
    @compare_horner (datetime_digits a) (datetime_digits b) _ _ rfl ha.fits hb.fits]
  rfl

/-! ## DATETIME on disk -/

/-- The number of fraction bytes at precision `dec`. -/
def frac_width (dec : Nat) : Nat := (dec + 1) / 2

/-- The power of ten the microseconds are divided by before they are stored at precision
    `dec`. -/
def frac_scale : Nat → Nat
  | 1 | 2 => 10000
  | 3 | 4 => 100
  | 5 | 6 => 1
  | _ => 1000000

/-- A precision the format knows, and microseconds it stores without loss. -/
structure Frac_valid (dec f : Nat) : Prop where
  dec_le : dec ≤ 6
  f_le : f ≤ 999999
  dvd : 10 ^ (6 - dec) ∣ f

theorem Frac_valid.scale_dvd {dec f : Nat} (h : Frac_valid dec f) : frac_scale dec ∣ f := by
  have hd := h.dvd
  have hdec := h.dec_le
  interval_cases dec <;> simp only [frac_scale] <;> omega

theorem Frac_valid.scaled_lt {dec f : Nat} (h : Frac_valid dec f) :
    f / frac_scale dec < 256 ^ frac_width dec := by
  have hf := h.f_le
  have hd := h.dvd
  have hdec := h.dec_le
  interval_cases dec <;> simp only [frac_scale, frac_width] <;> omega

theorem uchar_of_eq (x : Int) : [uchar_of x] = mi_int_store 1 x := by
  simp [uchar_of, mi_int_store, Radix.bytes]

/-- The two parts of a packed datetime. -/
theorem datetime_parts {t : MYSQL_TIME} (h : Datetime_valid t) :
    MY_PACKED_TIME_GET_INT_PART (TIME_to_longlong_datetime_packed t) = (datetime_int_part t : Int) ∧
      MY_PACKED_TIME_GET_FRAC_PART (TIME_to_longlong_datetime_packed t) = (t.second_part : Int) := by
  have := h.second_part
  rw [(TIME_to_longlong_datetime_packed_eq h).1, MY_PACKED_TIME_GET_INT_PART,
    MY_PACKED_TIME_GET_FRAC_PART, Int.shiftRight_eq_div_pow, Int.tmod_eq_emod_of_nonneg (by omega)]
  omega

/-- **The disk image of a datetime**: the offset integer part in five bytes, then the
    microseconds at the precision in `frac_width dec` bytes. -/
theorem my_datetime_packed_to_binary_eq {t : MYSQL_TIME} (h : Datetime_valid t) {dec : Nat}
    (hf : Frac_valid dec t.second_part) :
    my_datetime_packed_to_binary (TIME_to_longlong_datetime_packed t) dec =
      mi_int_store 5 ((datetime_int_part t : Int) + DATETIMEF_INT_OFS) ++
        mi_int_store (frac_width dec) ((t.second_part / frac_scale dec : Nat) : Int) := by
  obtain ⟨hI, hF⟩ := datetime_parts h
  have hd := hf.dvd
  have hdec := hf.dec_le
  have hfl := hf.f_le
  interval_cases dec
  · -- At precision 0 the microseconds are zero and nothing follows.
    simp only [my_datetime_packed_to_binary, hI, mi_int5store]
    rfl
  all_goals
    simp only [my_datetime_packed_to_binary, hI, hF, mi_int5store, frac_width, frac_scale,
      uchar_of_eq, mi_int2store, mi_int3store, Int.tdiv_eq_ediv_of_nonneg (Int.natCast_nonneg _)]
    congr 2 <;> omega

theorem length_my_datetime_packed_to_binary {t : MYSQL_TIME} (h : Datetime_valid t) {dec : Nat}
    (hf : Frac_valid dec t.second_part) :
    (my_datetime_packed_to_binary (TIME_to_longlong_datetime_packed t) dec).length =
      my_datetime_binary_length dec := by
  rw [my_datetime_packed_to_binary_eq h hf, List.length_append, length_mi_int_store,
    length_mi_int_store, my_datetime_binary_length, frac_width]

/-- **The DATETIME disk image reads back** to the packed value. -/
theorem my_datetime_packed_from_binary_to {t : MYSQL_TIME} (h : Datetime_valid t) {dec : Nat}
    (hf : Frac_valid dec t.second_part) :
    my_datetime_packed_from_binary
        (my_datetime_packed_to_binary (TIME_to_longlong_datetime_packed t) dec) dec =
      TIME_to_longlong_datetime_packed t := by
  have hI : datetime_int_part t < 2 ^ 39 := by
    have := h.year; have := h.month; have := h.day; have := h.hour; have := h.minute
    have := h.second
    simp only [datetime_int_part]
    omega
  have hd := hf.dvd
  have hdec := hf.dec_le
  have hfl := hf.f_le
  have hint : (mi_uint5korr (my_datetime_packed_to_binary (TIME_to_longlong_datetime_packed t) dec)
      : Int) - DATETIMEF_INT_OFS = datetime_int_part t := by
    rw [my_datetime_packed_to_binary_eq h hf, mi_uint5korr, mi_uint_korr_store, DATETIMEF_INT_OFS]
    omega
  have hfrac : (my_datetime_packed_to_binary (TIME_to_longlong_datetime_packed t) dec).drop 5 =
      mi_int_store (frac_width dec) ((t.second_part / frac_scale dec : Nat) : Int) ++ [] := by
    rw [my_datetime_packed_to_binary_eq h hf, List.drop_left' (length_mi_int_store 5 _),
      List.append_nil]
  unfold my_datetime_packed_from_binary
  simp only [hint, hfrac]
  rw [(TIME_to_longlong_datetime_packed_eq h).1]
  interval_cases dec
  · -- At precision 0 the microseconds are zero.
    simp only [MY_PACKED_TIME_MAKE_INT]
    push_cast
    omega
  all_goals
    simp only [MY_PACKED_TIME_MAKE, frac_width, frac_scale, Nat.reduceAdd, Nat.reduceDiv]
    first
      | rw [mi_sint1korr_store (by omega) (by omega)]
      | rw [mi_sint2korr_store (by omega) (by omega)]
      | rw [mi_sint3korr_store (by omega) (by omega)]
    push_cast
    omega

/-- **DATETIME disk images sort as the packed values.** -/
theorem compare_my_datetime_packed_to_binary {a b : MYSQL_TIME} (ha : Datetime_valid a)
    (hb : Datetime_valid b) {dec : Nat} (hfa : Frac_valid dec a.second_part)
    (hfb : Frac_valid dec b.second_part) :
    Libc.memcmp (my_datetime_packed_to_binary (TIME_to_longlong_datetime_packed a) dec)
        (my_datetime_packed_to_binary (TIME_to_longlong_datetime_packed b) dec) =
      compare (TIME_to_longlong_datetime_packed a) (TIME_to_longlong_datetime_packed b) := by
  have hIa : datetime_int_part a < 2 ^ 39 := by
    have := ha.year; have := ha.month; have := ha.day; have := ha.hour; have := ha.minute
    have := ha.second
    simp only [datetime_int_part]
    omega
  have hIb : datetime_int_part b < 2 ^ 39 := by
    have := hb.year; have := hb.month; have := hb.day; have := hb.hour; have := hb.minute
    have := hb.second
    simp only [datetime_int_part]
    omega
  have hpow : ((256 ^ frac_width dec : Nat) : Int) = 256 ^ frac_width dec := Int.natCast_pow _ _
  have hA₀ : (0 : Int) ≤ (datetime_int_part a : Int) + DATETIMEF_INT_OFS := by
    unfold DATETIMEF_INT_OFS; omega
  have hA₁ : (datetime_int_part a : Int) + DATETIMEF_INT_OFS < 256 ^ 5 := by
    unfold DATETIMEF_INT_OFS; omega
  have hB₀ : (0 : Int) ≤ (datetime_int_part b : Int) + DATETIMEF_INT_OFS := by
    unfold DATETIMEF_INT_OFS; omega
  have hB₁ : (datetime_int_part b : Int) + DATETIMEF_INT_OFS < 256 ^ 5 := by
    unfold DATETIMEF_INT_OFS; omega
  have hFa : ((a.second_part / frac_scale dec : Nat) : Int) < 256 ^ frac_width dec := by
    rw [← hpow]; exact_mod_cast hfa.scaled_lt
  have hFb : ((b.second_part / frac_scale dec : Nat) : Int) < 256 ^ frac_width dec := by
    rw [← hpow]; exact_mod_cast hfb.scaled_lt
  have hscale : 0 < frac_scale dec := by unfold frac_scale; split <;> omega
  rw [Libc.memcmp_eq_compare (by rw [length_my_datetime_packed_to_binary ha hfa,
      length_my_datetime_packed_to_binary hb hfb]),
    my_datetime_packed_to_binary_eq ha hfa, my_datetime_packed_to_binary_eq hb hfb,
    compare_append _ _ (by simp), compare_mi_int_store hA₀ hA₁ hB₀ hB₁,
    compare_mi_int_store (Int.natCast_nonneg _) hFa (Int.natCast_nonneg _) hFb,
    compare_add_right_int, compare_natCast, compare_natCast,
    compare_div_of_dvd hscale hfa.scale_dvd hfb.scale_dvd,
    (TIME_to_longlong_datetime_packed_eq ha).1, (TIME_to_longlong_datetime_packed_eq hb).1,
    compare_natCast, compare_mul_add (by have := ha.second_part; omega)
      (by have := hb.second_part; omega)]

/-! ## TIME -/

/-- The packed value of a time of `h` hours, `m` minutes, `s` seconds and `f`
    microseconds, negated when `neg`. -/
def time_packed (neg : Bool) (h m s f : Nat) : Int :=
  let tmp := MY_PACKED_TIME_MAKE ((h <<< 12) ||| (m <<< 6) ||| s : Nat) f
  if neg then -tmp else tmp

/-- The ranges of a TIME value. -/
structure Time_valid (h m s f : Nat) : Prop where
  hour : h ≤ 838
  minute : m ≤ 59
  second : s ≤ 59
  second_part : f ≤ 999999

/-- `hour << 12 | minute << 6 | second` as a number. -/
def time_hms (h m s : Nat) : Nat := (h * 64 + m) * 64 + s

theorem Time_valid.hms_lt {h m s f : Nat} (hv : Time_valid h m s f) : time_hms h m s < 2 ^ 22 := by
  have := hv.hour; have := hv.minute; have := hv.second
  simp only [time_hms]
  omega

/-- A packed TIME is a sign and a magnitude. -/
theorem time_packed_eq {neg : Bool} {h m s f : Nat} (hv : Time_valid h m s f) :
    time_packed neg h m s f = signMag neg (time_hms h m s * 2 ^ 24 + f) := by
  have hhms := hms_eq (h := h) (show m < 64 by have := hv.minute; omega)
    (show s < 64 by have := hv.second; omega)
  cases neg <;> simp only [time_packed, MY_PACKED_TIME_MAKE, hhms, signMag, time_hms,
    Bool.false_eq_true, ↓reduceIte] <;> push_cast <;> rfl

/-- The parts of a packed TIME: the integer part rounds down, so a negative time with a
    fraction has an integer part one below its hours, minutes and seconds; the fraction
    keeps the sign. -/
theorem time_parts {neg : Bool} {h m s f : Nat} (hv : Time_valid h m s f) :
    MY_PACKED_TIME_GET_INT_PART (time_packed neg h m s f) =
        signMag neg (time_hms h m s) - (if neg ∧ 0 < f then 1 else 0) ∧
      MY_PACKED_TIME_GET_FRAC_PART (time_packed neg h m s f) = signMag neg f := by
  have := hv.second_part
  rw [time_packed_eq hv, MY_PACKED_TIME_GET_INT_PART, MY_PACKED_TIME_GET_FRAC_PART,
    Int.shiftRight_eq_div_pow]
  cases neg
  · simp only [signMag, Bool.false_eq_true, ↓reduceIte, false_and, Int.sub_zero,
      Int.tmod_eq_emod_of_nonneg (Int.natCast_nonneg _)]
    omega
  · simp only [signMag, ↓reduceIte, true_and, Int.neg_tmod,
      Int.tmod_eq_emod_of_nonneg (Int.natCast_nonneg _)]
    constructor
    · split <;> omega
    · omega

/-- The image of a TIME stored as an offset integer part of three bytes and a fraction of
    `w` bytes, the microseconds divided by `scale`. A negative time with a fraction has
    its integer part one lower and its fraction complemented, and the two corrections
    cancel in the number the bytes write. -/
theorem time_split_value {neg : Bool} {h m s f w scale : Nat} (hv : Time_valid h m s f)
    (hdvd : scale ∣ f) (hlt : f / scale < 256 ^ w) :
    (value (mi_int_store 3 (TIMEF_INT_OFS + MY_PACKED_TIME_GET_INT_PART (time_packed neg h m s f)) ++
        mi_int_store w ((MY_PACKED_TIME_GET_FRAC_PART (time_packed neg h m s f)).tdiv scale)) : Int) =
      2 ^ 23 * 256 ^ w + signMag neg (time_hms h m s * 256 ^ w + f / scale) := by
  obtain ⟨hI, hF⟩ := @time_parts neg _ _ _ _ hv
  have hhms := hv.hms_lt
  have hR : ((256 ^ w : Nat) : Int) = 256 ^ w := Int.natCast_pow 256 w
  have hqlt : ((f / scale : Nat) : Int) < 256 ^ w := by rw [← hR]; exact_mod_cast hlt
  have hq : (f : Int).tdiv scale = ((f / scale : Nat) : Int) := by
    rw [Int.tdiv_eq_ediv_of_nonneg (Int.natCast_nonneg _)]; push_cast; rfl
  have h256 : (256 : Int) ^ 3 = 2 ^ 24 := by norm_num
  rw [value_append, length_mi_int_store]
  push_cast
  rw [value_mi_int_store, value_mi_int_store, hI, hF, h256]
  cases neg
  · -- A non-negative time: both parts are stored as they are.
    simp only [signMag, Bool.false_eq_true, ↓reduceIte, false_and, Int.sub_zero, hq]
    rw [Int.emod_eq_of_lt (by unfold TIMEF_INT_OFS; omega) (by unfold TIMEF_INT_OFS; omega),
      Int.emod_eq_of_lt (Int.natCast_nonneg _) hqlt, TIMEF_INT_OFS]
    push_cast
    ring
  · rcases Nat.eq_zero_or_pos f with hf0 | hfpos
    · -- A negative whole number of seconds: the fraction is zero.
      subst hf0
      simp only [signMag, ↓reduceIte, Nat.lt_irrefl, and_false, Int.sub_zero, Nat.zero_div,
        Int.natCast_zero, Int.neg_zero, Int.zero_tdiv, Int.zero_emod]
      rw [Int.emod_eq_of_lt (by unfold TIMEF_INT_OFS; omega) (by unfold TIMEF_INT_OFS; omega),
        TIMEF_INT_OFS]
      push_cast
      ring
    · -- A negative time with a fraction: integer part rounded down, fraction complemented.
      have hqpos : 0 < f / scale := by
        obtain ⟨k, rfl⟩ := hdvd
        rcases Nat.eq_zero_or_pos scale with h0 | h0
        · subst h0; simp at hfpos
        · rw [Nat.mul_div_cancel_left k h0]
          exact Nat.pos_of_mul_pos_left hfpos
      have hneg : (-((f / scale : Nat) : Int)) % 256 ^ w = 256 ^ w - ((f / scale : Nat) : Int) := by
        rw [← Int.add_emod_right, Int.emod_eq_of_lt (by omega) (by omega)]
        ring
      simp only [signMag, ↓reduceIte, hfpos, and_self, Int.neg_tdiv, hq]
      rw [hneg, Int.emod_eq_of_lt (by unfold TIMEF_INT_OFS; omega) (by unfold TIMEF_INT_OFS; omega),
        TIMEF_INT_OFS]
      push_cast
      ring

/-- **The TIME disk image is an offset plus a sign-magnitude number**: the hours,
    minutes and seconds, then the microseconds at the precision. -/
theorem time_binary_value {neg : Bool} {h m s f dec : Nat} (hv : Time_valid h m s f)
    (hf : Frac_valid dec f) :
    (value (my_time_packed_to_binary (time_packed neg h m s f) dec) : Int) =
      2 ^ 23 * 256 ^ frac_width dec +
        signMag neg (time_hms h m s * 256 ^ frac_width dec + f / frac_scale dec) := by
  have hhms := hv.hms_lt
  have hscaled := hf.scaled_lt
  have hdvd := hf.scale_dvd
  have hd := hf.dvd
  have hdec := hf.dec_le
  have hfl := hf.f_le
  have hcases : dec = 0 ∨ (dec = 1 ∨ dec = 2 ∨ dec = 3 ∨ dec = 4) ∨ (dec = 5 ∨ dec = 6) := by
    omega
  rcases hcases with rfl | h14 | h56
  · -- Precision 0: the microseconds are zero and only the integer part is stored.
    have hf0 : f = 0 := by omega
    subst hf0
    obtain ⟨hI, -⟩ := @time_parts neg _ _ _ _ hv
    simp only [Nat.lt_irrefl, and_false, ↓reduceIte, Int.sub_zero] at hI
    simp only [my_time_packed_to_binary, mi_int3store, value_mi_int_store, hI, frac_width,
      frac_scale, Nat.reduceAdd, Nat.reduceDiv, Nat.zero_div, pow_zero, Nat.mul_one, Nat.add_zero]
    rw [Int.emod_eq_of_lt (by unfold TIMEF_INT_OFS; cases neg <;> simp only [signMag] <;> omega)
      (by unfold TIMEF_INT_OFS; norm_num; cases neg <;> simp only [signMag] <;> omega),
      TIMEF_INT_OFS]
    push_cast
    ring
  · -- Precisions 1 to 4: an integer part and a one- or two-byte fraction.
    rcases h14 with rfl | rfl | rfl | rfl <;>
      simp only [my_time_packed_to_binary, mi_int3store, mi_int2store, uchar_of_eq, frac_width,
        frac_scale, Nat.reduceAdd, Nat.reduceDiv] at hscaled hdvd ⊢ <;>
      exact time_split_value hv hdvd hscaled
  · -- Precisions 5 and 6: the whole packed value, offset.
    have hP := @time_packed_eq neg _ _ _ _ hv
    have h256 : (256 : Int) ^ 6 = 2 ^ 48 := by norm_num
    have hf24 : f < 2 ^ 24 := by omega
    rcases h56 with rfl | rfl <;>
      simp only [my_time_packed_to_binary, mi_int6store, value_mi_int_store, hP, frac_width,
        frac_scale, Nat.reduceAdd, Nat.reduceDiv, Nat.div_one, h256] <;>
      rw [Int.emod_eq_of_lt (by unfold TIMEF_OFS; cases neg <;> simp only [signMag] <;> omega)
        (by unfold TIMEF_OFS; cases neg <;> simp only [signMag] <;> omega), TIMEF_OFS] <;>
      cases neg <;> simp only [signMag, Bool.false_eq_true, ↓reduceIte] <;> push_cast <;> ring

theorem length_my_time_packed_to_binary (nr : Int) {dec : Nat} (hdec : dec ≤ 6) :
    (my_time_packed_to_binary nr dec).length = my_time_binary_length dec := by
  interval_cases dec <;> simp [my_time_packed_to_binary, my_time_binary_length, mi_int3store,
    mi_int2store, mi_int6store]

/-- The two magnitudes of a TIME, stored and packed, order two times alike. -/
theorem compare_time_magnitudes {h₁ m₁ s₁ f₁ h₂ m₂ s₂ f₂ dec : Nat}
    (hf₁ : Frac_valid dec f₁) (hf₂ : Frac_valid dec f₂) :
    compare (time_hms h₁ m₁ s₁ * 256 ^ frac_width dec + f₁ / frac_scale dec)
        (time_hms h₂ m₂ s₂ * 256 ^ frac_width dec + f₂ / frac_scale dec) =
      compare (time_hms h₁ m₁ s₁ * 2 ^ 24 + f₁) (time_hms h₂ m₂ s₂ * 2 ^ 24 + f₂) := by
  have hscale : 0 < frac_scale dec := by unfold frac_scale; split <;> omega
  have := hf₁.f_le
  have := hf₂.f_le
  rw [compare_mul_add hf₁.scaled_lt hf₂.scaled_lt, compare_mul_add (by omega) (by omega),
    compare_div_of_dvd hscale hf₁.scale_dvd hf₂.scale_dvd]

theorem time_magnitude_eq_zero {h m s f dec : Nat} (hf : Frac_valid dec f) :
    time_hms h m s * 256 ^ frac_width dec + f / frac_scale dec = 0 ↔
      time_hms h m s * 2 ^ 24 + f = 0 := by
  have hscale : 0 < frac_scale dec := by unfold frac_scale; split <;> omega
  have hq : f / frac_scale dec = 0 ↔ f = 0 := by
    obtain ⟨k, rfl⟩ := hf.scale_dvd
    rw [Nat.mul_div_cancel_left k hscale, Nat.mul_eq_zero]
    omega
  simp only [Nat.add_eq_zero_iff, Nat.mul_eq_zero, hq, pow_eq_zero_iff', OfNat.ofNat_ne_zero,
    false_and, or_false]

/-- **TIME disk images sort as the signed packed values.** -/
theorem compare_my_time_packed_to_binary {neg₁ neg₂ : Bool} {h₁ m₁ s₁ f₁ h₂ m₂ s₂ f₂ dec : Nat}
    (hv₁ : Time_valid h₁ m₁ s₁ f₁) (hv₂ : Time_valid h₂ m₂ s₂ f₂) (hf₁ : Frac_valid dec f₁)
    (hf₂ : Frac_valid dec f₂) :
    Libc.memcmp (my_time_packed_to_binary (time_packed neg₁ h₁ m₁ s₁ f₁) dec)
        (my_time_packed_to_binary (time_packed neg₂ h₂ m₂ s₂ f₂) dec) =
      compare (time_packed neg₁ h₁ m₁ s₁ f₁) (time_packed neg₂ h₂ m₂ s₂ f₂) := by
  rw [Libc.memcmp_eq_compare (by rw [length_my_time_packed_to_binary _ hf₁.dec_le,
      length_my_time_packed_to_binary _ hf₂.dec_le]),
    compare_eq_compare_value (by rw [length_my_time_packed_to_binary _ hf₁.dec_le,
      length_my_time_packed_to_binary _ hf₂.dec_le]),
    ← compare_natCast, time_binary_value hv₁ hf₁, time_binary_value hv₂ hf₂,
    Int.add_comm (2 ^ 23 * 256 ^ frac_width dec), Int.add_comm (2 ^ 23 * 256 ^ frac_width dec),
    compare_add_right_int, time_packed_eq hv₁, time_packed_eq hv₂,
    compare_signMag (compare_time_magnitudes hf₁ hf₂) (time_magnitude_eq_zero hf₁)
      (time_magnitude_eq_zero hf₂)]

/-- **The TIME disk image reads back** to the packed value, negative values included. -/
theorem my_time_packed_from_binary_to {neg : Bool} {h m s f dec : Nat} (hv : Time_valid h m s f)
    (hf : Frac_valid dec f) :
    my_time_packed_from_binary (my_time_packed_to_binary (time_packed neg h m s f) dec) dec =
      time_packed neg h m s f := by
  obtain ⟨hI, hF⟩ := @time_parts neg _ _ _ _ hv
  have hP := @time_packed_eq neg _ _ _ _ hv
  have hhms := hv.hms_lt
  have hd := hf.dvd
  have hdec := hf.dec_le
  have hfl := hf.f_le
  have hcases : dec = 0 ∨ (dec = 1 ∨ dec = 2) ∨ (dec = 3 ∨ dec = 4) ∨ (dec = 5 ∨ dec = 6) := by
    omega
  rcases hcases with rfl | h12 | h34 | h56
  · -- Precision 0: the integer part alone.
    have hf0 : f = 0 := by omega
    subst hf0
    simp only [Nat.lt_irrefl, and_false, ↓reduceIte, Int.sub_zero] at hI
    have hread := mi_uint_korr_store 3
      (TIMEF_INT_OFS + MY_PACKED_TIME_GET_INT_PART (time_packed neg h m s 0)) []
    rw [List.append_nil] at hread
    simp only [my_time_packed_to_binary, my_time_packed_from_binary, mi_int3store, mi_uint3korr,
      MY_PACKED_TIME_MAKE_INT]
    rw [hread, hI, hP, TIMEF_INT_OFS]
    cases neg <;> simp only [signMag, Bool.false_eq_true, ↓reduceIte] <;> push_cast <;> omega
  · -- Precisions 1 and 2: one fraction byte, complemented for a negative time.
    rcases h12 with rfl | rfl <;>
    · simp only [my_time_packed_to_binary, my_time_packed_from_binary, mi_int3store, mi_uint3korr,
        uchar_of_eq, getD_toNat_eq_mi_uint_korr, List.drop_left' (length_mi_int_store 3 _)]
      rw [mi_uint_korr_store, mi_uint_korr_mi_int_store, hI, hF, hP]
      clear hI hF hP
      simp only [Nat.reduceSub, Nat.reducePow] at hd
      have h3 : (256 : Int) ^ 3 = 16777216 := by norm_num
      have h24 : (2 : Int) ^ 24 = 16777216 := by norm_num
      rw [h3, pow_one]
      rcases Nat.eq_zero_or_pos f with hf0 | hfpos
      · subst hf0
        cases neg <;>
          simp only [signMag, Bool.false_eq_true, ↓reduceIte, Nat.lt_irrefl, and_false,
            Int.natCast_zero, Int.neg_zero, Int.zero_tdiv, TIMEF_INT_OFS, MY_PACKED_TIME_MAKE] <;>
          split_ifs <;> simp only [h24] <;> omega
      · cases neg <;>
          simp only [signMag, Bool.false_eq_true, ↓reduceIte, false_and, true_and, hfpos,
            Int.neg_tdiv, Int.tdiv_eq_ediv_of_nonneg (Int.natCast_nonneg _), TIMEF_INT_OFS,
            MY_PACKED_TIME_MAKE] <;>
          split_ifs <;> simp only [h24] <;> omega
  · -- Precisions 3 and 4: two fraction bytes, complemented for a negative time.
    rcases h34 with rfl | rfl <;>
    · simp only [my_time_packed_to_binary, my_time_packed_from_binary, mi_int3store, mi_uint3korr,
        mi_int2store, mi_uint2korr, List.drop_left' (length_mi_int_store 3 _)]
      rw [mi_uint_korr_store, mi_uint_korr_mi_int_store, hI, hF, hP]
      clear hI hF hP
      simp only [Nat.reduceSub, Nat.reducePow] at hd
      have h3 : (256 : Int) ^ 3 = 16777216 := by norm_num
      have h2 : (256 : Int) ^ 2 = 65536 := by norm_num
      have h24 : (2 : Int) ^ 24 = 16777216 := by norm_num
      rw [h3, h2]
      rcases Nat.eq_zero_or_pos f with hf0 | hfpos
      · subst hf0
        cases neg <;>
          simp only [signMag, Bool.false_eq_true, ↓reduceIte, Nat.lt_irrefl, and_false,
            Int.natCast_zero, Int.neg_zero, Int.zero_tdiv, TIMEF_INT_OFS, MY_PACKED_TIME_MAKE] <;>
          split_ifs <;> simp only [h24] <;> omega
      · cases neg <;>
          simp only [signMag, Bool.false_eq_true, ↓reduceIte, false_and, true_and, hfpos,
            Int.neg_tdiv, Int.tdiv_eq_ediv_of_nonneg (Int.natCast_nonneg _), TIMEF_INT_OFS,
            MY_PACKED_TIME_MAKE] <;>
          split_ifs <;> simp only [h24] <;> omega
  · -- Precisions 5 and 6: the whole packed value, offset.
    rcases h56 with rfl | rfl <;>
    · simp only [my_time_packed_to_binary, my_time_packed_from_binary, mi_int6store, mi_uint6korr]
      rw [mi_uint_korr_mi_int_store, hP]
      clear hI hF hP
      have h6 : (256 : Int) ^ 6 = 281474976710656 := by norm_num
      rw [h6, TIMEF_OFS]
      cases neg <;> simp only [signMag, Bool.false_eq_true, ↓reduceIte] <;> omega

/-! ## Round trips and order -/

/-- **DATETIME packing is a bijection that keeps chronological order**, in memory and on
    disk: unpacking restores the datetime, packed values compare as the field tuples,
    and at every precision that keeps the microseconds the disk image has the format's
    length, reads back to the packed value and sorts as it does. -/
theorem datetime_packing_round_trip {a b : MYSQL_TIME} (ha : Datetime_valid a)
    (hb : Datetime_valid b) :
    TIME_from_longlong_datetime_packed (TIME_to_longlong_datetime_packed a) =
        { a with time_type := MYSQL_TIMESTAMP_DATETIME } ∧
      (TIME_to_longlong_datetime_packed a < TIME_to_longlong_datetime_packed b ↔
        datetime_fields a < datetime_fields b) ∧
      ∀ dec, Frac_valid dec a.second_part → Frac_valid dec b.second_part →
        my_datetime_packed_from_binary
            (my_datetime_packed_to_binary (TIME_to_longlong_datetime_packed a) dec) dec =
          TIME_to_longlong_datetime_packed a ∧
        (my_datetime_packed_to_binary (TIME_to_longlong_datetime_packed a) dec).length =
          my_datetime_binary_length dec ∧
        Libc.memcmp (my_datetime_packed_to_binary (TIME_to_longlong_datetime_packed a) dec)
            (my_datetime_packed_to_binary (TIME_to_longlong_datetime_packed b) dec) =
          compare (TIME_to_longlong_datetime_packed a) (TIME_to_longlong_datetime_packed b) := by
  refine ⟨TIME_from_longlong_datetime_packed_packed ha, ?_, ?_⟩
  · rw [← Int.compare_eq_lt, compare_datetime_packed ha hb, compare_eq_lt_iff_lt]
  · intro dec hfa hfb
    exact ⟨my_datetime_packed_from_binary_to ha hfa, length_my_datetime_packed_to_binary ha hfa,
      compare_my_datetime_packed_to_binary ha hb hfa hfb⟩

/-- 2024-02-29 13:45:07.12. -/
def leap_day_noon : MYSQL_TIME :=
  ⟨2024, 2, 29, 13, 45, 7, 120000, false, MYSQL_TIMESTAMP_DATETIME⟩

/-- 2024-03-01 00:00:00.5. -/
def march_first : MYSQL_TIME := ⟨2024, 3, 1, 0, 0, 0, 500000, false, MYSQL_TIMESTAMP_DATETIME⟩

theorem leap_day_noon_valid : Datetime_valid leap_day_noon :=
  ⟨rfl, by decide, by decide, by decide, by decide, by decide, by decide, by decide⟩

theorem march_first_valid : Datetime_valid march_first :=
  ⟨rfl, by decide, by decide, by decide, by decide, by decide, by decide, by decide⟩

theorem datetime_packing_round_trip_leap_day :
    Datetime_valid leap_day_noon ∧ Datetime_valid march_first ∧
      (TIME_from_longlong_datetime_packed (TIME_to_longlong_datetime_packed leap_day_noon) =
          { leap_day_noon with time_type := MYSQL_TIMESTAMP_DATETIME } ∧
        (TIME_to_longlong_datetime_packed leap_day_noon <
            TIME_to_longlong_datetime_packed march_first ↔
          datetime_fields leap_day_noon < datetime_fields march_first) ∧
        ∀ dec, Frac_valid dec leap_day_noon.second_part → Frac_valid dec march_first.second_part →
          my_datetime_packed_from_binary
              (my_datetime_packed_to_binary (TIME_to_longlong_datetime_packed leap_day_noon) dec)
              dec = TIME_to_longlong_datetime_packed leap_day_noon ∧
          (my_datetime_packed_to_binary (TIME_to_longlong_datetime_packed leap_day_noon)
              dec).length = my_datetime_binary_length dec ∧
          Libc.memcmp
              (my_datetime_packed_to_binary (TIME_to_longlong_datetime_packed leap_day_noon) dec)
              (my_datetime_packed_to_binary (TIME_to_longlong_datetime_packed march_first) dec) =
            compare (TIME_to_longlong_datetime_packed leap_day_noon)
              (TIME_to_longlong_datetime_packed march_first)) :=
  ⟨leap_day_noon_valid, march_first_valid,
    datetime_packing_round_trip leap_day_noon_valid march_first_valid⟩

/-- **The TIME disk format round-trips and sorts negative values correctly**: at every
    precision that keeps the microseconds, the image of a packed time has the format's
    length and reads back to it, and two images compare as the signed values. -/
theorem time_binary_round_trip {neg₁ neg₂ : Bool} {h₁ m₁ s₁ f₁ h₂ m₂ s₂ f₂ dec : Nat}
    (hv₁ : Time_valid h₁ m₁ s₁ f₁) (hv₂ : Time_valid h₂ m₂ s₂ f₂) (hf₁ : Frac_valid dec f₁)
    (hf₂ : Frac_valid dec f₂) :
    my_time_packed_from_binary (my_time_packed_to_binary (time_packed neg₁ h₁ m₁ s₁ f₁) dec) dec =
        time_packed neg₁ h₁ m₁ s₁ f₁ ∧
      (my_time_packed_to_binary (time_packed neg₁ h₁ m₁ s₁ f₁) dec).length =
        my_time_binary_length dec ∧
      Libc.memcmp (my_time_packed_to_binary (time_packed neg₁ h₁ m₁ s₁ f₁) dec)
          (my_time_packed_to_binary (time_packed neg₂ h₂ m₂ s₂ f₂) dec) =
        compare (time_packed neg₁ h₁ m₁ s₁ f₁) (time_packed neg₂ h₂ m₂ s₂ f₂) :=
  ⟨my_time_packed_from_binary_to hv₁ hf₁, length_my_time_packed_to_binary _ hf₁.dec_le,
    compare_my_time_packed_to_binary hv₁ hv₂ hf₁ hf₂⟩

/-- `-00:00:01.5` against `00:00:00` at one decimal: the negative time with a fraction,
    whose integer part is stored rounded down. -/
theorem time_binary_round_trip_negative :
    Time_valid 0 0 1 500000 ∧ Time_valid 0 0 0 0 ∧ Frac_valid 1 500000 ∧ Frac_valid 1 0 ∧
      (my_time_packed_from_binary (my_time_packed_to_binary (time_packed true 0 0 1 500000) 1) 1 =
          time_packed true 0 0 1 500000 ∧
        (my_time_packed_to_binary (time_packed true 0 0 1 500000) 1).length =
          my_time_binary_length 1 ∧
        Libc.memcmp (my_time_packed_to_binary (time_packed true 0 0 1 500000) 1)
            (my_time_packed_to_binary (time_packed false 0 0 0 0) 1) =
          compare (time_packed true 0 0 1 500000) (time_packed false 0 0 0 0)) :=
  have hv₁ : Time_valid 0 0 1 500000 := ⟨by decide, by decide, by decide, by decide⟩
  have hv₂ : Time_valid 0 0 0 0 := ⟨by decide, by decide, by decide, by decide⟩
  have hf₁ : Frac_valid 1 500000 := ⟨by decide, by decide, by decide⟩
  have hf₂ : Frac_valid 1 0 := ⟨by decide, by decide, by decide⟩
  ⟨hv₁, hv₂, hf₁, hf₂, time_binary_round_trip hv₁ hv₂ hf₁ hf₂⟩

end MyTime
end AliSql
