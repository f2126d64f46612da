import Mathlib
import AliSql.Time.Packed
import AliSql.Decimal.Parse

/-!
# `get_interval_value`: the interval of `DATE_ADD` (`sql/item_timefunc.cc`)

`INTERVAL expr unit` reaches `date_add_interval` as an `INTERVAL`: seven unsigned amounts
and a sign. `get_interval_value` fills it from the argument item in one of three ways. A
`SECOND` with decimals is split at its point by `my_decimal2lldiv_t`. The units of one number
(`YEAR` to `MICROSECOND`) read `val_int()`, set its sign apart, and store the magnitude in
their field, times 3 for a `QUARTER` and 7 for a `WEEK`. The units of several numbers read the
text `val_str_ascii()` with `get_interval_info`, which takes the runs of digits between
separators, and when there are fewer than the unit has, moves them to its low end.

On runs of digits with a separator of non-digits between each two, `get_interval_info` reads
the numbers back (`get_interval_info_runs`, `get_interval_info_intercalate`). For the units
that end in microseconds the last run is scaled to microseconds when it has fewer than six
digits, and kept as a count of microseconds, unscaled, when it has six or more.

The item is modelled by what the function reads of it (`Item`). Every store into a
`ulong` or `ulonglong` field is taken modulo `2 ^ 64` (`to_ulong`): the products by 3 and 7,
and the digits read into a `longlong` past 19 of them, wrap there, as on the machine.
-/

set_option autoImplicit false

namespace AliSql
namespace MyTime

/-- `enum interval_type` of `include/my_time.h`. -/
inductive interval_type
  | INTERVAL_YEAR | INTERVAL_QUARTER | INTERVAL_MONTH | INTERVAL_WEEK | INTERVAL_DAY
  | INTERVAL_HOUR | INTERVAL_MINUTE | INTERVAL_SECOND | INTERVAL_MICROSECOND
  | INTERVAL_YEAR_MONTH | INTERVAL_DAY_HOUR | INTERVAL_DAY_MINUTE
  | INTERVAL_DAY_SECOND | INTERVAL_HOUR_MINUTE | INTERVAL_HOUR_SECOND
  | INTERVAL_MINUTE_SECOND | INTERVAL_DAY_MICROSECOND | INTERVAL_HOUR_MICROSECOND
  | INTERVAL_MINUTE_MICROSECOND | INTERVAL_SECOND_MICROSECOND | INTERVAL_LAST
  deriving DecidableEq, Repr

open interval_type

/-- `INTERVAL` of `sql/structs.h`: the `ulong` and `ulonglong` amounts and the sign, zero as
    `memset` leaves them. -/
structure INTERVAL where
  year : Nat := 0
  month : Nat := 0
  day : Nat := 0
  hour : Nat := 0
  minute : Nat := 0
  second : Nat := 0
  second_part : Nat := 0
  neg : Bool := false
  deriving DecidableEq, Repr

/-- What `get_interval_value` reads of its argument `args`: `decimals`, `val_int()` (`none`
    when it is NULL), `val_decimal()` split by `my_decimal2lldiv_t` into the integer part and
    the nanoseconds (`none` when either fails), and `val_str_ascii()`. -/
structure Item where
  decimals : Nat
  val_int : Option Int
  val_lldiv : Option (Int × Int)
  val_str_ascii : Option (List Char)

namespace get_interval_info

/-- The inner `for` loop of `get_interval_info`: the digits at the front of `str` as the
    number `value`, the count `n` of digits read, and the text after them. -/
def read_digits : List Char → Nat → Nat → Nat × Nat × List Char
  | c :: str, value, n =>
    if my_isdigit_latin1 c then read_digits str (value * 10 + (c.toNat - '0'.toNat)) (n + 1)
    else (value, n, c :: str)
  | [], value, n => (value, n, [])

/-- The outer `for` loop of `get_interval_info`, with `k` numbers still to read: the numbers
    read as `ulonglong`s, `msec_length` of the last, and the text left. -/
def loop : Nat → List Char → List Nat × Int × List Char
  | 0, str => ([], 0, str)
  | k + 1, str =>
    let (value, n, str) := read_digits str 0 0
    let msec_length : Int := 6 - n
    let str := str.dropWhile fun c => !my_isdigit_latin1 c
    -- at the end of the text the loop breaks; after the last number it ends
    if str = [] ∨ k = 0 then ([to_ulong value], msec_length, str)
    else
      let (values, msec_length, str) := loop k str
      (to_ulong value :: values, msec_length, str)

end get_interval_info

/-- `get_interval_info(args, str_value, &is_negative, count, values, transform_msec)` on the
    text `val_str_ascii()`: the sign and the `count` numbers, `none` when the text is NULL or
    has more than `count` numbers. -/
def get_interval_info (res : Option (List Char)) (count : Nat) (transform_msec : Bool) :
    Option (Bool × List Nat) :=
  match res with
  | none => none
  | some str =>
    let str := str.dropWhile my_isspace_latin1
    let (is_negative, str) := match str with
      | '-' :: str => (true, str)
      | str => (false, str)
    let str := str.dropWhile fun c => !my_isdigit_latin1 c
    let (values, msec_length, str) := get_interval_info.loop count str
    -- too few numbers are the low ones: they move to the end of `values`, zeros before them
    let values := List.replicate (count - values.length) 0 ++ values
    let values :=
      if transform_msec ∧ msec_length > 0 then
        values.set (count - 1) (to_ulong (values.getD (count - 1) 0 * 10 ^ msec_length.toNat))
      else values
    if str = [] then some (is_negative, values) else none

example : get_interval_info (some " -1 2:3".toList) 3 false = some (true, [1, 2, 3]) := by decide

example : get_interval_info (some "2:3".toList) 3 false = some (false, [0, 2, 3]) := by decide

/-! ## Runs of digits -/

/-- A run of digits: not empty, and digits only. -/
structure Digit_run (ds : List Char) : Prop where
  ne_nil : ds ≠ []
  digit : ∀ c ∈ ds, my_isdigit_latin1 c = true

/-- A separator between two runs of digits: not empty, and no digit. -/
structure Separator (sep : List Char) : Prop where
  ne_nil : sep ≠ []
  not_digit : ∀ c ∈ sep, my_isdigit_latin1 c = false

namespace get_interval_info

/-- A run of digits, up to a character that is not one, reads to its number. -/
theorem read_digits_append {rest : List Char}
    (hr : ∀ c, rest.head? = some c → my_isdigit_latin1 c = false) :
    ∀ (ds : List Char), (∀ c ∈ ds, my_isdigit_latin1 c = true) → ∀ (value n : Nat),
      read_digits (ds ++ rest) value n = (Nat.ofDigitChars 10 ds value, n + ds.length, rest)
  | [], _, value, n => by
    cases rest with
    | nil => rfl
    | cons c rest =>
      rw [List.nil_append, read_digits, if_neg (by simp [hr c rfl])]
      rfl
  | c :: ds, hds, value, n => by
    rw [List.cons_append, read_digits, if_pos (hds c List.mem_cons_self),
      read_digits_append hr ds (fun d hd => hds d (List.mem_cons_of_mem _ hd)),
      Nat.ofDigitChars_cons, List.length_cons, Nat.mul_comm, Nat.add_assoc, Nat.add_comm 1]

/-- Non-digits up to a digit, skipped. -/
theorem dropWhile_not_digit_append {sep rest : List Char}
    (hsep : ∀ c ∈ sep, my_isdigit_latin1 c = false)
    (hr : ∀ c, rest.head? = some c → my_isdigit_latin1 c = true) :
    (sep ++ rest).dropWhile (fun c => !my_isdigit_latin1 c) = rest := by
  rw [List.dropWhile_append_of_pos (by simpa using hsep)]
  cases rest with
  | nil => rfl
  | cons c rest => rw [List.dropWhile_cons_of_neg (by simp [hr c rfl])]

/-- The runs of digits `chunks`, a separator between each two: the loop reads each run to its
    number, when it may read as many. Induction on the runs. -/
theorem loop_intercalate {sep : List Char} (hsep : Separator sep) :
    ∀ (chunks : List (List Char)) (k : Nat), chunks ≠ [] → chunks.length ≤ k →
      (∀ ds ∈ chunks, Digit_run ds) →
      loop k (sep.intercalate chunks) =
        (chunks.map fun ds => to_ulong (Nat.ofDigitChars 10 ds 0),
          6 - ((chunks.getLastD []).length : Int), [])
  | [], _, hne, _, _ => absurd rfl hne
  | _ :: _, 0, _, hk, _ => absurd hk (by simp)
  | [ds], k + 1, _, _, hd => by
    -- the last run reads to the end of the text, where the loop breaks
    have hread := @read_digits_append [] (by simp) ds (hd ds List.mem_cons_self).digit 0 0
    rw [List.append_nil] at hread
    simp [loop, hread]
  | _ :: [] :: _, _ + 1, _, _, hd => absurd rfl (hd [] (by simp)).ne_nil
  | ds :: (x :: l) :: cs, k + 1, _, hk, hd => by
    have hd' : ∀ d ∈ (x :: l) :: cs, Digit_run d := fun d h => hd d (List.mem_cons_of_mem _ h)
    have hx : my_isdigit_latin1 x = true := (hd' _ List.mem_cons_self).digit x List.mem_cons_self
    -- the run `ds` stops at the separator, which is skipped up to the next run
    have hsep_head : ∀ c, (sep ++ sep.intercalate ((x :: l) :: cs)).head? = some c →
        my_isdigit_latin1 c = false := by
      obtain ⟨s, ss, hs⟩ := List.exists_cons_of_ne_nil hsep.ne_nil
      intro c hc
      simp only [hs, List.cons_append, List.head?_cons, Option.some.injEq] at hc
      exact hc ▸ hsep.not_digit s (hs ▸ List.mem_cons_self)
    have hnext : ∀ c, (sep.intercalate ((x :: l) :: cs)).head? = some c →
        my_isdigit_latin1 c = true := by
      intro c hc
      rw [List.intercalate_cons_cons_left, List.head?_cons, Option.some.injEq] at hc
      exact hc ▸ hx
    rw [List.intercalate_cons_cons, List.append_assoc, loop,
      read_digits_append hsep_head ds (hd ds List.mem_cons_self).digit 0 0]
    dsimp only
    rw [dropWhile_not_digit_append hsep.not_digit hnext, if_neg (by
      rw [List.intercalate_cons_cons_left]
      simp only [List.length_cons] at hk
      simp only [reduceCtorEq, false_or]
      omega),
      loop_intercalate hsep ((x :: l) :: cs) k (by simp) (by simp at hk ⊢; omega) hd']
    simp

end get_interval_info

/-- What `get_interval_info` returns on runs of digits, after an optional `-`: the numbers of
    the runs, zeros before them, and with `transform_msec` the last scaled to microseconds by
    `msec_length`, six less its digits. -/
theorem get_interval_info_runs {sep : List Char} (hsep : Separator sep)
    {chunks : List (List Char)} (hne : chunks ≠ []) (hd : ∀ ds ∈ chunks, Digit_run ds)
    {count : Nat} (hcount : chunks.length ≤ count) (neg transform_msec : Bool) :
    let values := List.replicate (count - chunks.length) 0 ++
      chunks.map fun ds => to_ulong (Nat.ofDigitChars 10 ds 0)
    let msec_length : Int := 6 - (chunks.getLastD []).length
    get_interval_info (some ((if neg then ['-'] else []) ++ sep.intercalate chunks)) count
        transform_msec =
      some (neg, if transform_msec ∧ msec_length > 0 then
        values.set (count - 1) (to_ulong (values.getD (count - 1) 0 * 10 ^ msec_length.toNat))
        else values) := by
  intro values msec_length
  obtain ⟨ds, cs, rfl⟩ := List.exists_cons_of_ne_nil hne
  obtain ⟨x, l, rfl⟩ := List.exists_cons_of_ne_nil (hd _ List.mem_cons_self).ne_nil
  have hx : my_isdigit_latin1 x = true := (hd _ List.mem_cons_self).digit x List.mem_cons_self
  have hloop := get_interval_info.loop_intercalate hsep _ count hne hcount hd
  rw [List.intercalate_cons_cons_left] at hloop ⊢
  obtain ⟨hsp, -, hminus, -⟩ := isdigit_not_other hx
  -- the first run starts with a digit: neither a blank nor a sign, and not skipped
  have hskip : (x :: sep.intercalate (l :: cs)).dropWhile (fun c => !my_isdigit_latin1 c) =
      x :: sep.intercalate (l :: cs) :=
    List.dropWhile_cons_of_neg (by simp [hx])
  unfold get_interval_info
  cases neg
  · simp only [Bool.false_eq_true, if_false, List.nil_append]
    rw [List.dropWhile_cons_of_neg (by simp [hsp])]
    split
    · rename_i heq
      exact absurd (List.cons.inj heq).1 hminus
    · dsimp only
      rw [hskip, hloop]
      simp [values, msec_length]
  · simp only [if_true, List.cons_append, List.nil_append]
    rw [List.dropWhile_cons_of_neg (by decide)]
    split
    · rename_i heq
      obtain ⟨-, rfl⟩ := List.cons.inj heq
      dsimp only
      rw [hskip, hloop]
      simp [values, msec_length]
    · rename_i hnot
      exact absurd rfl (hnot _)

/-- **`get_interval_info` reads runs of digits back**: after an optional `-`, up to `count`
    runs of digits with a separator between each two read to the sign and the numbers of the
    runs as `ulonglong`s, the places before them zero. -/
theorem get_interval_info_intercalate {sep : List Char} (hsep : Separator sep)
    {chunks : List (List Char)} (hne : chunks ≠ []) (hd : ∀ ds ∈ chunks, Digit_run ds)
    {count : Nat} (hcount : chunks.length ≤ count) (neg : Bool) :
    get_interval_info (some ((if neg then ['-'] else []) ++ sep.intercalate chunks)) count false =
      some (neg, List.replicate (count - chunks.length) 0 ++
        chunks.map fun ds => to_ulong (Nat.ofDigitChars 10 ds 0)) := by
  rw [get_interval_info_runs hsep hne hd hcount neg false]
  simp

/-- `1:30` reads as the numbers 1 and 30. -/
theorem get_interval_info_intercalate_hour_minute :
    get_interval_info (some ((if false then ['-'] else []) ++ [':'].intercalate [['1'], ['3', '0']]))
        2 false =
      some (false, List.replicate (2 - [['1'], ['3', '0']].length) 0 ++
        [['1'], ['3', '0']].map fun ds => to_ulong (Nat.ofDigitChars 10 ds 0)) := by
  have hd : ∀ ds ∈ [['1'], ['3', '0']], Digit_run ds := by
    intro ds hds
    simp only [List.mem_cons, List.not_mem_nil, or_false] at hds
    rcases hds with rfl | rfl <;> exact ⟨by decide, by simp [my_isdigit_latin1]⟩
  exact get_interval_info_intercalate ⟨by decide, by simp [my_isdigit_latin1]⟩ (by decide) hd
    (le_refl 2) false

example : get_interval_info (some "1.5".toList) 2 true = some (false, [1, 500000]) := by decide

example : get_interval_info (some "1.1234567".toList) 2 true = some (false, [1, 1234567]) := by
  decide

/-- The `switch` of `get_interval_value` on the types of one number: `value` in the field of
    `int_type`, times 3 for a quarter and 7 for a week. -/
def get_interval_value.simple (int_type : interval_type) (neg : Bool) (value : Int) : INTERVAL :=
  match int_type with
  | INTERVAL_YEAR => { neg := neg, year := to_ulong value }
  | INTERVAL_QUARTER => { neg := neg, month := to_ulong (value * 3) }
  | INTERVAL_MONTH => { neg := neg, month := to_ulong value }
  | INTERVAL_WEEK => { neg := neg, day := to_ulong (value * 7) }
  | INTERVAL_DAY => { neg := neg, day := to_ulong value }
  | INTERVAL_HOUR => { neg := neg, hour := to_ulong value }
  | INTERVAL_MINUTE => { neg := neg, minute := to_ulong value }
  | INTERVAL_SECOND => { neg := neg, second := to_ulong value }
  | INTERVAL_MICROSECOND => { neg := neg, second_part := to_ulong value }
  | _ => { neg := neg }

/-- The `switch` of `get_interval_value` on the types of several numbers, from the numbers
    `a` that `get_interval_info` read. -/
def get_interval_value.composite (str : Option (List Char)) : interval_type → Option INTERVAL
  | INTERVAL_YEAR_MONTH => (get_interval_info str 2 false).map fun (neg, a) =>
    { neg := neg, year := a.getD 0 0, month := a.getD 1 0 }
  | INTERVAL_DAY_HOUR => (get_interval_info str 2 false).map fun (neg, a) =>
    { neg := neg, day := a.getD 0 0, hour := a.getD 1 0 }
  | INTERVAL_DAY_MINUTE => (get_interval_info str 3 false).map fun (neg, a) =>
    { neg := neg, day := a.getD 0 0, hour := a.getD 1 0, minute := a.getD 2 0 }
  | INTERVAL_DAY_SECOND => (get_interval_info str 4 false).map fun (neg, a) =>
    { neg := neg, day := a.getD 0 0, hour := a.getD 1 0, minute := a.getD 2 0,
      second := a.getD 3 0 }
  | INTERVAL_HOUR_MINUTE => (get_interval_info str 2 false).map fun (neg, a) =>
    { neg := neg, hour := a.getD 0 0, minute := a.getD 1 0 }
  | INTERVAL_HOUR_SECOND => (get_interval_info str 3 false).map fun (neg, a) =>
    { neg := neg, hour := a.getD 0 0, minute := a.getD 1 0, second := a.getD 2 0 }
  | INTERVAL_MINUTE_SECOND => (get_interval_info str 2 false).map fun (neg, a) =>
    { neg := neg, minute := a.getD 0 0, second := a.getD 1 0 }
  | INTERVAL_DAY_MICROSECOND => (get_interval_info str 5 true).map fun (neg, a) =>
    { neg := neg, day := a.getD 0 0, hour := a.getD 1 0, minute := a.getD 2 0,
      second := a.getD 3 0, second_part := a.getD 4 0 }
  | INTERVAL_HOUR_MICROSECOND => (get_interval_info str 4 true).map fun (neg, a) =>
    { neg := neg, hour := a.getD 0 0, minute := a.getD 1 0, second := a.getD 2 0,
      second_part := a.getD 3 0 }
  | INTERVAL_MINUTE_MICROSECOND => (get_interval_info str 3 true).map fun (neg, a) =>
    { neg := neg, minute := a.getD 0 0, second := a.getD 1 0, second_part := a.getD 2 0 }
  | INTERVAL_SECOND_MICROSECOND => (get_interval_info str 2 true).map fun (neg, a) =>
    { neg := neg, second := a.getD 0 0, second_part := a.getD 1 0 }
  -- `INTERVAL_LAST`, and the types of one number, which never come here
  | _ => some {}

/-- `get_interval_value(args, int_type, str_value, &interval)`: the interval, `none` when the
    function returns `true`. A decimal number of seconds is split at its point; the types of
    one number take `val_int()` with its sign set apart; the others read the text. -/
def get_interval_value (args : Item) (int_type : interval_type) : Option INTERVAL :=
  if int_type = INTERVAL_SECOND ∧ args.decimals ≠ 0 then
    match args.val_lldiv with
    | none => some {}
    | some (quot, rem) =>
      if quot ≥ 0 ∧ rem ≥ 0 then
        some { neg := false, second := to_ulong quot, second_part := to_ulong (rem.tdiv 1000) }
      else
        some { neg := true, second := to_ulong (-quot), second_part := to_ulong ((-rem).tdiv 1000) }
  else if int_type.ctorIdx ≤ INTERVAL_MICROSECOND.ctorIdx then
    args.val_int.map fun value =>
      if value < 0 then get_interval_value.simple int_type true (-value)
      else get_interval_value.simple int_type false value
  else get_interval_value.composite args.val_str_ascii int_type

/-- **The types of one number read `val_int()`**: the sign goes to `neg` and the magnitude to
    the field of the type. -/
theorem get_interval_value_of_val_int {args : Item} {int_type : interval_type} {value : Int}
    (hsimple : int_type.ctorIdx ≤ INTERVAL_MICROSECOND.ctorIdx)
    (hdec : int_type = INTERVAL_SECOND → args.decimals = 0) (hv : args.val_int = some value) :
    get_interval_value args int_type =
      some (if value < 0 then get_interval_value.simple int_type true (-value)
        else get_interval_value.simple int_type false value) := by
  unfold get_interval_value
  rw [if_neg (fun h => h.2 (hdec h.1)), if_pos hsimple, hv, Option.map_some]

end MyTime
end AliSql
