import Mathlib
import AliSql.Time.StrToDatetime
import AliSql.Time.DateAdd

/-!
# The default text of a `MYSQL_TIME`, and reading it back

`my_TIME_to_str` (`sql-common/my_time.c`) prints a value in the default format of its type:
`YYYY-MM-DD hh:mm:ss[.ffffff]` for a `DATETIME` (`my_datetime_to_str`, on the open-coded
`TIME_to_datetime_str`), `YYYY-MM-DD` for a `DATE` (`my_date_to_str`) and
`[-]hh:mm:ss[.ffffff]` for a `TIME` (`my_time_to_str`). The fraction is `my_useconds_to_str`,
the first `dec` of the six microsecond digits. A digit is the byte `(char) ('0' + v)`
(`digit_char`), a conversion `%0Nu` of `sprintf` the decimal digits with zeros in front
(`zero_pad`).

The text of a `DATETIME` or a `DATE` is what `str_to_datetime` reads back
(`str_to_datetime_my_datetime_to_str`, `str_to_datetime_my_date_to_str`), except that a date
text is refused when only a datetime is asked for
(`str_to_datetime_my_date_to_str_datetime_only`). It is in the delimited
format: each group is read to its delimiter, the fraction to its fixed width of six, and a short
fraction is scaled back by `log_10_int`. The proofs run the field loop a group at a time, with
one lemma for each way a round can end (`scan_loop_delimited`, `scan_loop_last`,
`scan_loop_point`), chained by transitivity, and then the end of `str_to_datetime` on the state
they leave.
-/

set_option autoImplicit false

namespace AliSql
namespace MyTime

open enum_mysql_timestamp_type

/-- `(char) ('0' + v)`: the byte of the digit `v`, cut to eight bits. -/
def digit_char (v : Nat) : Char := Char.ofNat ((48 + v) % 256)

/-- `sprintf(to, "%0*lu", width, n)`: the decimal digits of `n`, with zeros in front up to
    `width` characters. -/
def zero_pad (width n : Nat) : List Char :=
  List.replicate (width - (Nat.toDigits 10 n).length) '0' ++ Nat.toDigits 10 n

/-- `my_useconds_to_str(to, useconds, dec)`, `sprintf(to, ".%0*lu", dec, …)`: a point and
    `useconds` without its last `6 - dec` digits, in `dec` digits, and the `int` `sprintf`
    returns, the number of characters it wrote; `dec ≤ DATETIME_MAX_DECIMALS` is asserted. -/
def my_useconds_to_str (useconds dec : Nat) : Int × List Char :=
  let buf := '.' :: zero_pad dec (useconds / log_10_int.getD (DATETIME_MAX_DECIMALS - dec) 0)
  (buf.length, buf)

/-- `my_time_to_str(l_time, to, dec)`: `[-]hh:mm:ss`, and the fraction when `dec` is not 0;
    the `int` returned adds up what the two `sprintf` calls return. -/
def my_time_to_str (l_time : MYSQL_TIME) (dec : Nat) : Int × List Char :=
  let extra_hours := 0
  let buf := (if l_time.neg then ['-'] else []) ++ zero_pad 2 (extra_hours + l_time.hour) ++
    ':' :: zero_pad 2 l_time.minute ++ ':' :: zero_pad 2 l_time.second
  let len : Int := buf.length
  if dec ≠ 0 then
    let u := my_useconds_to_str l_time.second_part dec
    (len + u.1, buf ++ u.2)
  else (len, buf)

/-- `my_date_to_str(l_time, to)`: `sprintf(to, "%04u-%02u-%02u", …)`. -/
def my_date_to_str (l_time : MYSQL_TIME) : Int × List Char :=
  let buf := zero_pad 4 l_time.year ++ '-' :: zero_pad 2 l_time.month ++ '-' ::
    zero_pad 2 l_time.day
  (buf.length, buf)

namespace TIME_to_datetime_str

/-- The two digits of a part: `temp2= temp / 10; temp= temp - temp2 * 10`. -/
def two_digits (temp : Nat) : List Char :=
  let temp2 := temp / 10
  let temp := temp - temp2 * 10
  [digit_char temp2, digit_char temp]

/-- The four digits of the year: those of `year / 100`, then those of `year % 100`. -/
def year_digits (year : Nat) : List Char :=
  let temp := year / 100
  let temp' := year % 100
  [digit_char (temp / 10), digit_char (temp % 10), digit_char (temp' / 10),
    digit_char (temp' % 10)]

end TIME_to_datetime_str

open TIME_to_datetime_str in
/-- `TIME_to_datetime_str(to, ltime)`: `YYYY-MM-DD hh:mm:ss`, open coded, and the constant 19
    it returns. -/
def TIME_to_datetime_str (ltime : MYSQL_TIME) : Int × List Char :=
  (19, year_digits ltime.year ++ '-' :: two_digits ltime.month ++ '-' :: two_digits ltime.day ++
    ' ' :: two_digits ltime.hour ++ ':' :: two_digits ltime.minute ++ ':' ::
    two_digits ltime.second)

/-- `my_datetime_to_str(l_time, to, dec)`: the datetime, and the fraction when `dec` is not 0;
    `len` is what `TIME_to_datetime_str` returns, plus what `my_useconds_to_str` returns. -/
def my_datetime_to_str (l_time : MYSQL_TIME) (dec : Nat) : Int × List Char :=
  let r := TIME_to_datetime_str l_time
  if dec ≠ 0 then
    let u := my_useconds_to_str l_time.second_part dec
    (r.1 + u.1, r.2 ++ u.2)
  else r

/-- `my_TIME_to_str(l_time, to, dec)`: the format of the value's type; nothing, and 0, for
    `MYSQL_TIMESTAMP_NONE` and `MYSQL_TIMESTAMP_ERROR`. -/
def my_TIME_to_str (l_time : MYSQL_TIME) (dec : Nat) : Int × List Char :=
  match l_time.time_type with
  | MYSQL_TIMESTAMP_DATETIME => my_datetime_to_str l_time dec
  | MYSQL_TIMESTAMP_DATE => my_date_to_str l_time
  | MYSQL_TIMESTAMP_TIME => my_time_to_str l_time dec
  | MYSQL_TIMESTAMP_NONE | MYSQL_TIMESTAMP_ERROR => (0, [])

/-! ## Digits -/

theorem digit_char_eq {v : Nat} (h : v < 10) : digit_char v = v.digitChar := by
  interval_cases v <;> rfl

theorem isdigit_digitChar {v : Nat} (h : v < 10) : my_isdigit_latin1 v.digitChar = true := by
  interval_cases v <;> rfl

theorem isdigit_of_mem_toDigits {c : Char} {n : Nat} (h : c ∈ Nat.toDigits 10 n) :
    my_isdigit_latin1 c = true := by
  have hc := Nat.isDigit_of_mem_toDigits (by decide) (by decide) h
  simpa [my_isdigit_latin1, Char.isDigit, Char.le_def] using hc

theorem zero_pad_digits (width n : Nat) : ∀ c ∈ zero_pad width n, my_isdigit_latin1 c = true := by
  intro c hc
  rcases List.mem_append.1 hc with h0 | hd
  · rw [List.eq_of_mem_replicate h0]
    rfl
  · exact isdigit_of_mem_toDigits hd

/-- The zeros in front do not change the value. -/
@[simp] theorem ofDigitChars_zero_pad (width n : Nat) :
    Nat.ofDigitChars 10 (zero_pad width n) 0 = n := by
  simp [zero_pad, Nat.ofDigitChars_append]

/-- A number below `10 ^ width` is printed in exactly `width` characters. -/
theorem zero_pad_length {width n : Nat} (hw : 0 < width) (hn : n < 10 ^ width) :
    (zero_pad width n).length = width := by
  have hle := (Nat.length_toDigits_le_iff (n := n) (by decide) hw).2 hn
  simp only [zero_pad, List.length_append, List.length_replicate]
  omega

theorem zero_pad_ne_nil (width n : Nat) : zero_pad width n ≠ [] := by
  simp [zero_pad, Nat.toDigits_ne_nil]

namespace TIME_to_datetime_str

@[simp] theorem two_digits_length (v : Nat) : (two_digits v).length = 2 := rfl

@[simp] theorem year_digits_length (y : Nat) : (year_digits y).length = 4 := rfl

theorem two_digits_eq {v : Nat} (h : v < 100) :
    two_digits v = [(v / 10).digitChar, (v % 10).digitChar] := by
  have hmod : v - v / 10 * 10 = v % 10 := by omega
  simp only [two_digits, hmod, digit_char_eq (show v / 10 < 10 by omega),
    digit_char_eq (Nat.mod_lt v (show 10 > 0 by decide))]

theorem year_digits_eq {y : Nat} (h : y < 10000) :
    year_digits y = [(y / 100 / 10).digitChar, (y / 100 % 10).digitChar,
      (y % 100 / 10).digitChar, (y % 100 % 10).digitChar] := by
  simp only [year_digits, digit_char_eq (show y / 100 / 10 < 10 by omega),
    digit_char_eq (show y / 100 % 10 < 10 by omega),
    digit_char_eq (show y % 100 / 10 < 10 by omega),
    digit_char_eq (show y % 100 % 10 < 10 by omega)]

end TIME_to_datetime_str

/-! ## The groups that `str_to_datetime` reads whole -/

namespace str_to_datetime

/-- A group of one to six digits, of value `v`: the field loop reads it to its end, and its
    value passes the check against `999999`. -/
structure Digit_group (ds : List Char) (v : Nat) : Prop where
  ne_nil : ds ≠ []
  digits : ∀ c ∈ ds, my_isdigit_latin1 c = true
  length_le : ds.length ≤ 6
  value : Nat.ofDigitChars 10 ds 0 = v

theorem Digit_group.le {ds : List Char} {v : Nat} (hg : Digit_group ds v) : v ≤ 999999 := by
  have hlt := ofDigitChars_lt ds hg.digits 0
  have hpow : 10 ^ ds.length ≤ 10 ^ 6 := Nat.pow_le_pow_right (by omega) hg.length_le
  rw [hg.value] at hlt
  omega

theorem isdigit_not_punct {c : Char} (h : my_isdigit_latin1 c = true) :
    my_ispunct_latin1 c = false := by
  simp only [my_isdigit_latin1, Bool.and_eq_true, decide_eq_true_eq, Char.le_def,
    UInt32.le_iff_toNat_le] at h
  have hn : 48 ≤ c.toNat ∧ c.toNat ≤ 57 := h
  -- the ten digits, one by one
  rw [← Char.ofNat_toNat c]
  obtain ⟨h48, h57⟩ := hn
  generalize c.toNat = n at h48 h57
  interval_cases n <;> decide

/-- A digit is no delimiter. -/
theorem isdigit_not_delimiter {c : Char} (h : my_isdigit_latin1 c = true) :
    (my_ispunct_latin1 c || my_isspace_latin1 c) = false := by
  rw [isdigit_not_punct h, (isdigit_not_other h).1]
  rfl

/-- A delimiter is no digit. -/
theorem delimiter_not_isdigit {c : Char} (h : (my_ispunct_latin1 c || my_isspace_latin1 c) = true) :
    my_isdigit_latin1 c = false := by
  cases hd : my_isdigit_latin1 c
  · rfl
  · rw [isdigit_not_delimiter hd] at h
    exact absurd h Bool.false_ne_true

theorem Digit_group.head_not_delimiter {ds : List Char} {v : Nat} (hg : Digit_group ds v)
    (rest : List Char) :
    ∀ x ∈ (ds ++ rest).head?, (my_ispunct_latin1 x || my_isspace_latin1 x) = false := by
  intro x hx
  obtain ⟨d, ds', rfl⟩ := List.exists_cons_of_ne_nil hg.ne_nil
  rw [List.cons_append, List.head?_cons, Option.mem_some_iff] at hx
  subst hx
  exact isdigit_not_delimiter (hg.digits _ List.mem_cons_self)

/-- Zero-padded, a number below `10 ^ width` is a group, for widths 1 to 6. -/
theorem Digit_group.zero_pad {width n : Nat} (hw : 0 < width) (hw6 : width ≤ 6)
    (hn : n < 10 ^ width) : Digit_group (zero_pad width n) n :=
  ⟨zero_pad_ne_nil width n, zero_pad_digits width n, by rw [zero_pad_length hw hn]; exact hw6,
    ofDigitChars_zero_pad width n⟩

open TIME_to_datetime_str in
theorem Digit_group.two_digits {v : Nat} (h : v < 100) : Digit_group (two_digits v) v := by
  rw [two_digits_eq h]
  refine ⟨List.cons_ne_nil _ _, ?_, by simp, ?_⟩
  · intro c hc
    simp only [List.mem_cons, List.not_mem_nil, or_false] at hc
    rcases hc with rfl | rfl
    · exact isdigit_digitChar (by omega)
    · exact isdigit_digitChar (by omega)
  · simp only [Nat.ofDigitChars_cons_digitChar_of_lt_ten (show v / 10 < 10 by omega),
      Nat.ofDigitChars_cons_digitChar_of_lt_ten (show v % 10 < 10 by omega), Nat.ofDigitChars_nil]
    omega

open TIME_to_datetime_str in
theorem Digit_group.year_digits {y : Nat} (h : y < 10000) : Digit_group (year_digits y) y := by
  rw [year_digits_eq h]
  refine ⟨List.cons_ne_nil _ _, ?_, by simp, ?_⟩
  · intro c hc
    simp only [List.mem_cons, List.not_mem_nil, or_false] at hc
    rcases hc with rfl | rfl | rfl | rfl
    all_goals exact isdigit_digitChar (by omega)
  · simp only [Nat.ofDigitChars_cons_digitChar_of_lt_ten (show y / 100 / 10 < 10 by omega),
      Nat.ofDigitChars_cons_digitChar_of_lt_ten (show y / 100 % 10 < 10 by omega),
      Nat.ofDigitChars_cons_digitChar_of_lt_ten (show y % 100 / 10 < 10 by omega),
      Nat.ofDigitChars_cons_digitChar_of_lt_ten (show y % 100 % 10 < 10 by omega),
      Nat.ofDigitChars_nil]
    omega

/-! ## A round of the field loop, by how it ends -/

/-- **A fixed-width group is read whole** when it is shorter than the width left: the
    countdown of `field_length` does not reach 0 on it. -/
theorem scan_digits_fixed (ds : List Char) {rest : List Char}
    (hds : ∀ c ∈ ds, my_isdigit_latin1 c = true)
    (hrest : ∀ c ∈ rest.head?, my_isdigit_latin1 c = false) (t field_length : Nat)
    (hlen : ds.length < field_length) (hfl : field_length < 2 ^ 32) :
    scan_digits false (ds ++ rest) (t % 2 ^ 64) field_length =
      (rest, Nat.ofDigitChars 10 ds t % 2 ^ 64, field_length - ds.length) := by
  induction ds generalizing t field_length with
  | nil =>
    cases rest with
    | nil => rfl
    | cons c rest =>
      have hc := hrest c rfl
      simp [scan_digits, hc]
  | cons c ds ih =>
    have hc := hds c List.mem_cons_self
    have hstep : (t % 2 ^ 64 * 10 + dig c) % 2 ^ 64 =
        (10 * t + (c.toNat - '0'.toNat)) % 2 ^ 64 := by
      unfold dig
      omega
    rw [List.length_cons] at hlen
    -- the `uint` countdown, without its wrap: `field_length` is at least 2 here
    have hdec : (field_length + (2 ^ 32 - 1)) % 2 ^ 32 = field_length - 1 := by omega
    rw [List.cons_append, scan_digits, if_pos hc]
    simp only [Bool.false_eq_true, if_false, hdec]
    rw [if_pos (by simp only [bne_iff_ne]; omega), hstep,
      ih (fun d hd => hds d (List.mem_cons_of_mem _ hd)) _ _ (by omega) (by omega),
      Nat.ofDigitChars_cons, List.length_cons]
    simp only [Prod.mk.injEq, true_and]
    omega

/-- **A group is read whole**, to its delimiter or, as the fraction, to its fixed width of
    six. -/
theorem field_of_group {allow_space : Nat} {s : Scan} {ds rest : List Char} {v : Nat}
    (hstr : s.str = ds ++ rest) (hg : Digit_group ds v)
    (hrest : ∀ c ∈ rest.head?, my_isdigit_latin1 c = false)
    (hfix : s.i = format_position 6 → s.field_length = 6) :
    field false allow_space s = after_digits allow_space s rest v ds.length := by
  by_cases h6 : s.i = format_position 6
  · -- the fraction: `scan_until_delim` is off and the width is six
    obtain ⟨x, xs, rfl⟩ := List.exists_cons_of_ne_nil hg.ne_nil
    have hxs : ∀ c ∈ xs, my_isdigit_latin1 c = true :=
      fun c hc => hg.digits c (List.mem_cons_of_mem _ hc)
    have hlen : xs.length < s.field_length := by
      have := hg.length_le
      rw [hfix h6]
      simp at this
      omega
    have hscan := scan_digits_fixed xs hxs hrest (dig x) s.field_length hlen
      (by rw [hfix h6]; decide)
    have hv : Nat.ofDigitChars 10 xs (dig x) = v := by
      rw [← hg.value, Nat.ofDigitChars_cons, Nat.mul_zero, Nat.zero_add]
      rfl
    rw [Nat.mod_eq_of_lt (dig_lt x), hv, Nat.mod_eq_of_lt (by have := hg.le; omega)] at hscan
    unfold field
    rw [hstr, List.cons_append]
    dsimp only
    rw [show (!false && s.i != format_position 6) = false by simp [h6], hscan]
    congr 1
    simp only [List.length_cons, List.length_append]
    omega
  · rw [field_until_delim_of_short hstr hg.ne_nil hg.digits hrest (by simp [h6])
      (by have := hg.length_le; omega), hg.value]

/-- A round of the field loop at a digit, before field 7, that goes on. -/
theorem scan_loop_next {is_internal_format : Bool} {allow_space fuel : Nat} {s s' : Scan}
    {x : Char} {xs : List Char} (hstr : s.str = x :: xs) (hx : my_isdigit_latin1 x = true)
    (hi : s.i < MAX_DATE_PARTS - 1) (hf : field is_internal_format allow_space s = .next s') :
    scan_loop is_internal_format allow_space (fuel + 1) s =
      scan_loop is_internal_format allow_space fuel s' := by
  rw [scan_loop, hstr]
  simp only [hi, hx, and_self, if_true, hf]

/-- A round of the field loop at a digit, before field 7, that leaves it. -/
theorem scan_loop_brk {is_internal_format : Bool} {allow_space fuel : Nat} {s s' : Scan}
    {x : Char} {xs : List Char} (hstr : s.str = x :: xs) (hx : my_isdigit_latin1 x = true)
    (hi : s.i < MAX_DATE_PARTS - 1) (hf : field is_internal_format allow_space s = .brk s') :
    scan_loop is_internal_format allow_space (fuel + 1) s = some s' := by
  rw [scan_loop, hstr]
  simp only [hi, hx, and_self, if_true, hf]

/-- The delimiters after a group end where a non-delimiter starts. -/
theorem skip_delimiters_end {allow_space i : Nat} {rest : List Char}
    (hrest : ∀ x ∈ rest.head?, (my_ispunct_latin1 x || my_isspace_latin1 x) = false)
    (found_space found_delimitier : Bool) :
    skip_delimiters allow_space i rest found_space found_delimitier =
      some (rest, found_space, found_delimitier) := by
  cases rest with
  | nil => rfl
  | cons x r =>
    rw [skip_delimiters, if_neg (by rw [hrest x rfl]; exact Bool.false_ne_true)]

/-- One delimiter: `found_delimitier` is set, and `found_space` for a space. -/
theorem skip_delimiters_one {allow_space i : Nat} {c : Char} {rest : List Char}
    (hc : (my_ispunct_latin1 c || my_isspace_latin1 c) = true)
    (hsp : my_isspace_latin1 c = true → allow_space &&& (1 <<< i) ≠ 0)
    (hrest : ∀ x ∈ rest.head?, (my_ispunct_latin1 x || my_isspace_latin1 x) = false)
    (found_space found_delimitier : Bool) :
    skip_delimiters allow_space i (c :: rest) found_space found_delimitier =
      some (rest, found_space || my_isspace_latin1 c, true) := by
  rw [skip_delimiters, if_pos hc]
  cases hs : my_isspace_latin1 c
  · rw [if_neg Bool.false_ne_true, skip_delimiters_end hrest, Bool.or_false]
  · rw [if_pos rfl, if_neg (hsp hs), skip_delimiters_end hrest, Bool.or_true]

/-- The end of a round whose group one delimiter follows, before the seconds. -/
theorem after_digits_delimited {allow_space : Nat} {s : Scan} {c : Char} {rest : List Char}
    {v len : Nat} (hv : v ≤ 999999) (hc : (my_ispunct_latin1 c || my_isspace_latin1 c) = true)
    (hsp : my_isspace_latin1 c = true → allow_space &&& (1 <<< s.i) ≠ 0)
    (hrest : ∀ x ∈ rest.head?, (my_ispunct_latin1 x || my_isspace_latin1 x) = false)
    (hi : s.i < 5) :
    after_digits allow_space s (c :: rest) v len =
      .next { s with
        str := rest, i := s.i + 1, date := Function.update s.date s.i v,
        date_len := Function.update s.date_len s.i len, not_zero_date := s.not_zero_date ||| v,
        field_length := if format_position (s.i + 1) = 0 then 4 else 2,
        found_space := s.found_space || my_isspace_latin1 c, found_delimitier := true,
        last_field_pos := rest } := by
  have hT : ¬(s.i = format_position 2 ∧ c = 'T') := by
    rintro ⟨-, rfl⟩
    exact absurd hc (by decide)
  have h5 : s.i ≠ format_position 5 := by rw [show format_position 5 = 5 from rfl]; omega
  have h6 : s.i ≠ format_position 6 := by rw [show format_position 6 = 6 from rfl]; omega
  unfold after_digits
  rw [if_neg (by omega)]
  dsimp only
  rw [if_neg hT, if_neg h5, skip_delimiters_one hc hsp hrest]
  dsimp only
  rw [if_neg h6]

/-- The end of a round at the end of the string. -/
theorem after_digits_nil {allow_space : Nat} {s : Scan} {v len : Nat} (hv : v ≤ 999999) :
    after_digits allow_space s [] v len =
      .brk { s with
        str := [], i := s.i + 1, date := Function.update s.date s.i v,
        date_len := Function.update s.date_len s.i len, not_zero_date := s.not_zero_date ||| v,
        field_length := if format_position (s.i + 1) = 0 then 4 else 2,
        last_field_pos := [] } := by
  unfold after_digits
  rw [if_neg (by omega)]

/-- The end of the seconds' round at a point: the fraction follows, six wide. -/
theorem after_digits_point {allow_space : Nat} {s : Scan} {rest : List Char} {v len : Nat}
    (hv : v ≤ 999999) (hi : s.i = 5) :
    after_digits allow_space s ('.' :: rest) v len =
      .next { s with
        str := rest, i := s.i + 1, date := Function.update s.date s.i v,
        date_len := Function.update s.date_len s.i len, not_zero_date := s.not_zero_date ||| v,
        field_length := 6, last_field_pos := rest } := by
  have hT : ¬(s.i = format_position 2 ∧ '.' = 'T') := fun h => absurd h.2 (by decide)
  unfold after_digits
  rw [if_neg (by omega)]
  dsimp only
  rw [if_neg hT, if_pos (show s.i = format_position 5 from hi), if_pos rfl]

theorem head_not_isdigit {c : Char} (hc : my_isdigit_latin1 c = false) (rest : List Char) :
    ∀ y ∈ (c :: rest).head?, my_isdigit_latin1 y = false := by
  intro y hy
  rw [List.head?_cons, Option.mem_some_iff] at hy
  rw [← hy]
  exact hc

/-- **A group and one delimiter**, in fields 0 to 4: the loop goes on at what follows. -/
theorem scan_loop_delimited {allow_space fuel : Nat} {s : Scan} {ds rest : List Char}
    {c : Char} {v : Nat} (hstr : s.str = ds ++ c :: rest) (hg : Digit_group ds v)
    (hc : (my_ispunct_latin1 c || my_isspace_latin1 c) = true)
    (hsp : my_isspace_latin1 c = true → allow_space &&& (1 <<< s.i) ≠ 0)
    (hrest : ∀ x ∈ rest.head?, (my_ispunct_latin1 x || my_isspace_latin1 x) = false)
    (hi : s.i < 5) :
    scan_loop false allow_space (fuel + 1) s =
      scan_loop false allow_space fuel { s with
        str := rest, i := s.i + 1, date := Function.update s.date s.i v,
        date_len := Function.update s.date_len s.i ds.length,
        not_zero_date := s.not_zero_date ||| v,
        field_length := if format_position (s.i + 1) = 0 then 4 else 2,
        found_space := s.found_space || my_isspace_latin1 c, found_delimitier := true,
        last_field_pos := rest } := by
  obtain ⟨x, xs, hx⟩ := List.exists_cons_of_ne_nil hg.ne_nil
  have hfix : s.i = format_position 6 → s.field_length = 6 := fun h =>
    absurd h (by rw [show format_position 6 = 6 from rfl]; omega)
  refine scan_loop_next (hstr.trans (by rw [hx, List.cons_append]))
    (hg.digits x (by rw [hx]; exact List.mem_cons_self)) (by change s.i < 7; omega) ?_
  rw [field_of_group hstr hg (head_not_isdigit (delimiter_not_isdigit hc) rest) hfix,
    after_digits_delimited hg.le hc hsp hrest hi]

/-- **A group that ends the string** ends the loop: in fields 0 to 5, and in the fraction
    when it is six wide. -/
theorem scan_loop_last {allow_space fuel : Nat} {s : Scan} {ds : List Char} {v : Nat}
    (hstr : s.str = ds) (hg : Digit_group ds v) (hi : s.i < 7)
    (hfix : s.i = format_position 6 → s.field_length = 6) :
    scan_loop false allow_space (fuel + 1) s =
      some { s with
        str := [], i := s.i + 1, date := Function.update s.date s.i v,
        date_len := Function.update s.date_len s.i ds.length,
        not_zero_date := s.not_zero_date ||| v,
        field_length := if format_position (s.i + 1) = 0 then 4 else 2, last_field_pos := [] } := by
  obtain ⟨x, xs, hx⟩ := List.exists_cons_of_ne_nil hg.ne_nil
  refine scan_loop_brk (hstr.trans hx) (hg.digits x (by rw [hx]; exact List.mem_cons_self))
    (by change s.i < 7; omega) ?_
  rw [field_of_group (hstr.trans (List.append_nil ds).symm) hg (by simp) hfix,
    after_digits_nil hg.le]

/-- **The seconds and a point**: the loop goes on at the fraction, six wide. -/
theorem scan_loop_point {allow_space fuel : Nat} {s : Scan} {ds rest : List Char} {v : Nat}
    (hstr : s.str = ds ++ '.' :: rest) (hg : Digit_group ds v) (hi : s.i = 5) :
    scan_loop false allow_space (fuel + 1) s =
      scan_loop false allow_space fuel { s with
        str := rest, i := s.i + 1, date := Function.update s.date s.i v,
        date_len := Function.update s.date_len s.i ds.length,
        not_zero_date := s.not_zero_date ||| v, field_length := 6, last_field_pos := rest } := by
  obtain ⟨x, xs, hx⟩ := List.exists_cons_of_ne_nil hg.ne_nil
  have hfix : s.i = format_position 6 → s.field_length = 6 := fun h =>
    absurd h (by rw [show format_position 6 = 6 from rfl]; omega)
  refine scan_loop_next (hstr.trans (by rw [hx, List.cons_append]))
    (hg.digits x (by rw [hx]; exact List.mem_cons_self)) (by change s.i < 7; omega) ?_
  rw [field_of_group hstr hg (head_not_isdigit (by decide) rest) hfix,
    after_digits_point hg.le hi]

end str_to_datetime

/-! ## Reading the text back -/

/-- A `DATE` that its text holds: a year of four digits, and a day of its month. -/
structure Date_text_ok (t : MYSQL_TIME) : Prop where
  year : t.year ≤ 9999
  month_pos : 1 ≤ t.month
  month : t.month ≤ 12
  day_pos : 1 ≤ t.day
  day : t.day ≤ month_length t.year t.month

/-- A `DATETIME` that its text with `dec` digits of fraction holds: a date, a time of day, and
    no digit of the fraction past the `dec` printed. -/
structure Datetime_text_ok (t : MYSQL_TIME) (dec : Nat) : Prop extends Date_text_ok t where
  hour : t.hour ≤ 23
  minute : t.minute ≤ 59
  second : t.second ≤ 59
  second_part : t.second_part < 10 ^ 6
  dec_le : dec ≤ DATETIME_MAX_DECIMALS
  fraction : 10 ^ (DATETIME_MAX_DECIMALS - dec) ∣ t.second_part

open TIME_to_datetime_str in
theorem my_datetime_to_str_eq (t : MYSQL_TIME) (dec : Nat) :
    (my_datetime_to_str t dec).2 = year_digits t.year ++ '-' :: (two_digits t.month ++ '-' ::
      (two_digits t.day ++ ' ' :: (two_digits t.hour ++ ':' :: (two_digits t.minute ++ ':' ::
      (two_digits t.second ++
        if dec ≠ 0 then (my_useconds_to_str t.second_part dec).2 else []))))) := by
  unfold my_datetime_to_str TIME_to_datetime_str
  split <;> simp_all

/-- `my_datetime_to_str` returns the number of characters it writes, whatever the value. -/
theorem my_datetime_to_str_fst (t : MYSQL_TIME) (dec : Nat) :
    (my_datetime_to_str t dec).1 = (my_datetime_to_str t dec).2.length := by
  unfold my_datetime_to_str TIME_to_datetime_str my_useconds_to_str
  split
  · simp only [List.length_append, List.length_cons, Nat.cast_add, TIME_to_datetime_str.two_digits_length, TIME_to_datetime_str.year_digits_length]
    omega
  · simp

/-- A day of its month passes `check_date`, under every flag. -/
theorem check_date_of_day {l : MYSQL_TIME} (hm1 : 1 ≤ l.month) (hm12 : l.month ≤ 12)
    (hd1 : 1 ≤ l.day) (hday : l.day ≤ month_length l.year l.month) (flags was_cut : Nat) :
    check_date l true flags was_cut = (false, was_cut) := by
  by_cases hinv : flags &&& TIME_INVALID_DATES = 0
  · exact (check_date_iff_month_length l was_cut hm1 hm12 hd1 hinv).2 hday
  · have hm : l.month ≠ 0 := by omega
    have hd : l.day ≠ 0 := by omega
    simp [check_date, hinv, hm, hd]

/-- `log_10_int[k]`, below its twenty entries. -/
theorem log_10_int_getD {k : Nat} (h : k < 20) : log_10_int.getD k 0 = 10 ^ k := by
  simp [log_10_int, List.getD_eq_getElem?_getD, h]

/-- A day of a month is at most 31. -/
theorem Date_text_ok.day_le {t : MYSQL_TIME} (h : Date_text_ok t) : t.day ≤ 31 :=
  h.day.trans (month_length_le t.year t.month)

open str_to_datetime TIME_to_datetime_str in
/-- The six groups of `TIME_to_datetime_str`, each read whole. -/
theorem Datetime_text_ok.digit_groups {t : MYSQL_TIME} {dec : Nat} (h : Datetime_text_ok t dec) :
    Digit_group (year_digits t.year) t.year ∧ Digit_group (two_digits t.month) t.month ∧
    Digit_group (two_digits t.day) t.day ∧ Digit_group (two_digits t.hour) t.hour ∧
    Digit_group (two_digits t.minute) t.minute ∧ Digit_group (two_digits t.second) t.second := by
  have hday := h.day_le
  have hy := h.year
  have hm := h.month
  have hh := h.hour
  have hmi := h.minute
  have hs := h.second
  exact ⟨Digit_group.year_digits (by omega), Digit_group.two_digits (by omega),
    Digit_group.two_digits (by omega), Digit_group.two_digits (by omega),
    Digit_group.two_digits (by omega), Digit_group.two_digits (by omega)⟩

/-- The printed fraction, `second_part` without its last `6 - dec` digits, fits in `dec`
    digits. -/
theorem Datetime_text_ok.fraction_lt {t : MYSQL_TIME} {dec : Nat} (h : Datetime_text_ok t dec) :
    t.second_part / 10 ^ (DATETIME_MAX_DECIMALS - dec) < 10 ^ dec := by
  have hpow : 10 ^ dec * 10 ^ (DATETIME_MAX_DECIMALS - dec) = 10 ^ 6 := by
    rw [← Nat.pow_add]
    have := h.dec_le
    simp only [DATETIME_MAX_DECIMALS] at this ⊢
    congr 1
    omega
  rw [Nat.div_lt_iff_lt_mul (Nat.pow_pos (by decide)), hpow]
  exact h.second_part

/-- **The fraction scaled back** as `str_to_datetime` does it, by `10 ^ (6 - dec)` in an
    `unsigned int` below six digits, is the `second_part` that was printed. -/
theorem Datetime_text_ok.scale_back {t : MYSQL_TIME} {dec : Nat} (h : Datetime_text_ok t dec) :
    (if dec < 6 then t.second_part / 10 ^ (DATETIME_MAX_DECIMALS - dec) *
      10 ^ (DATETIME_MAX_DECIMALS - dec) % 4294967296
      else t.second_part / 10 ^ (DATETIME_MAX_DECIMALS - dec)) = t.second_part := by
  have hlt := h.second_part
  by_cases h6 : dec < 6
  · rw [if_pos h6, Nat.div_mul_cancel h.fraction]
    omega
  · have h0 : DATETIME_MAX_DECIMALS - dec = 0 := by
      have := h.dec_le
      simp only [DATETIME_MAX_DECIMALS] at this ⊢
      omega
    rw [if_neg h6, h0, Nat.pow_zero, Nat.div_one]

/-- Without fraction digits, only a zero fraction is printed whole. -/
theorem Datetime_text_ok.second_part_zero {t : MYSQL_TIME} (h : Datetime_text_ok t 0) :
    t.second_part = 0 := by
  have h6 := h.fraction
  simp only [DATETIME_MAX_DECIMALS, Nat.sub_zero] at h6
  exact Nat.eq_zero_of_dvd_of_lt h6 h.second_part

open str_to_datetime TIME_to_datetime_str in
/-- The text of a `DATETIME` without fraction digits reads back. -/
theorem str_to_datetime_datetime_text_zero {t : MYSQL_TIME} {dec : Nat} (h : Datetime_text_ok t dec)
    (l_time : MYSQL_TIME) (flags : Nat) (hdec : dec = 0) :
    str_to_datetime (my_datetime_to_str t dec).2 l_time flags =
      (false, { t with neg := false, time_type := MYSQL_TIMESTAMP_DATETIME }, ⟨0, dec, 0⟩) := by
  obtain ⟨gy, gm, gd, gh, gmi, gs⟩ := h.digit_groups
  have hday31 := h.day_le
  subst hdec
  have htext : (my_datetime_to_str t 0).2 = year_digits t.year ++ '-' :: (two_digits t.month ++ '-' ::
      (two_digits t.day ++ ' ' :: (two_digits t.hour ++ ':' :: (two_digits t.minute ++ ':' ::
      two_digits t.second)))) := by
    simp [my_datetime_to_str_eq]
  generalize hx : (my_datetime_to_str t 0).2 = text
  rw [htext] at hx
  have hstart : start text flags = some ⟨false, 0, 4, 0, fun _ => 0⟩ := by
    rw [← hx]
    exact start_of_delimited gy.digits (c := '-') (by decide) (by decide) (by decide) flags
  have hloop : scan_loop false allow_space (MAX_DATE_PARTS - 1)
      ⟨text, 0, fun _ => 0, Function.update (fun _ => 0) (format_position 0) 0, 4, 0, false,
        false, text, 0⟩ = some _ :=
    Eq.trans (scan_loop_delimited hx.symm gy (by decide) (fun h => absurd h (by decide))
      (gm.head_not_delimiter _) (by simp)) <|
    Eq.trans (scan_loop_delimited rfl gm (by decide) (fun h => absurd h (by decide))
      (gd.head_not_delimiter _) (by simp)) <|
    -- the space after the day: `allow_space` has the bit of field 2
    Eq.trans (scan_loop_delimited rfl gd (by decide)
      (fun _ => by show allow_space &&& 1 <<< 2 ≠ 0; decide) (gh.head_not_delimiter _) (by simp)) <|
    Eq.trans (scan_loop_delimited rfl gh (by decide) (fun h => absurd h (by decide))
      (gmi.head_not_delimiter _) (by simp)) <|
    Eq.trans (scan_loop_delimited rfl gmi (by decide) (fun h => absurd h (by decide))
      (gs.head_not_delimiter _) (by simp)) <|
    scan_loop_last rfl gs (by simp) (fun h => absurd h (by show ¬(5 = format_position 6); decide))
  obtain ⟨y0, ys, hy0⟩ := List.exists_cons_of_ne_nil gy.ne_nil
  have hy0d : my_isdigit_latin1 y0 = true := gy.digits y0 (by rw [hy0]; exact List.mem_cons_self)
  obtain ⟨tail, rfl⟩ : ∃ tail, text = y0 :: tail := ⟨_, by rw [← hx, hy0, List.cons_append]⟩
  unfold str_to_datetime
  simp only [List.dropWhile_cons, (isdigit_not_other hy0d).1, hy0d, hstart, Bool.false_eq_true,
    if_false, Bool.not_true]
  dsimp only at hloop
  rw [hloop]
  clear hloop hstart
  have hsp0 := h.second_part_zero
  have hcd := check_date_of_day
    (l := { t with neg := false, time_type := MYSQL_TIMESTAMP_DATETIME })
    h.month_pos h.month h.day_pos h.day flags 0
  rw [hsp0] at hcd
  have hm0 : t.month ≠ 0 := by have := h.month_pos; omega
  have hspace : my_isspace_latin1 ' ' = true := rfl
  simp [format_position, internal_format_positions, MAX_DATE_PARTS, Function.update_apply,
    check_datetime_range, hsp0, hm0, hspace, hcd, trailing, my_time_status_init,
    Nat.not_lt.2 h.year, Nat.not_lt.2 h.month, Nat.not_lt.2 h.hour, Nat.not_lt.2 h.minute,
    Nat.not_lt.2 h.second, Nat.not_lt.2 hday31]

open str_to_datetime TIME_to_datetime_str in
/-- The text of a `DATETIME` with `dec` fraction digits reads back: the fraction is read six
    wide and scaled back by `10 ^ (6 - dec)`. -/
theorem str_to_datetime_datetime_text_pos {t : MYSQL_TIME} {dec : Nat} (h : Datetime_text_ok t dec)
    (l_time : MYSQL_TIME) (flags : Nat) (hdec : 0 < dec) :
    str_to_datetime (my_datetime_to_str t dec).2 l_time flags =
      (false, { t with neg := false, time_type := MYSQL_TIMESTAMP_DATETIME }, ⟨0, dec, 0⟩) := by
  obtain ⟨gy, gm, gd, gh, gmi, gs⟩ := h.digit_groups
  have hday31 := h.day_le
  have hn := h.fraction_lt
  have gf := Digit_group.zero_pad hdec h.dec_le hn
  have htext : (my_datetime_to_str t dec).2 = year_digits t.year ++ '-' :: (two_digits t.month ++ '-' ::
      (two_digits t.day ++ ' ' :: (two_digits t.hour ++ ':' :: (two_digits t.minute ++ ':' ::
      (two_digits t.second ++ '.' ::
        zero_pad dec (t.second_part / 10 ^ (DATETIME_MAX_DECIMALS - dec))))))) := by
    have hk : DATETIME_MAX_DECIMALS - dec < 20 := by simp only [DATETIME_MAX_DECIMALS]; omega
    simp only [my_datetime_to_str_eq, my_useconds_to_str, ne_eq, hdec.ne', not_false_eq_true,
      if_true, log_10_int_getD hk]
  generalize hx : (my_datetime_to_str t dec).2 = text
  rw [htext] at hx
  have hstart : start text flags = some ⟨false, 0, 4, 0, fun _ => 0⟩ := by
    rw [← hx]
    exact start_of_delimited gy.digits (c := '-') (by decide) (by decide) (by decide) flags
  have hloop : scan_loop false allow_space (MAX_DATE_PARTS - 1)
      ⟨text, 0, fun _ => 0, Function.update (fun _ => 0) (format_position 0) 0, 4, 0, false,
        false, text, 0⟩ = some _ :=
    Eq.trans (scan_loop_delimited hx.symm gy (by decide) (fun h => absurd h (by decide))
      (gm.head_not_delimiter _) (by simp)) <|
    Eq.trans (scan_loop_delimited rfl gm (by decide) (fun h => absurd h (by decide))
      (gd.head_not_delimiter _) (by simp)) <|
    -- the space after the day: `allow_space` has the bit of field 2
    Eq.trans (scan_loop_delimited rfl gd (by decide)
      (fun _ => by show allow_space &&& 1 <<< 2 ≠ 0; decide) (gh.head_not_delimiter _) (by simp)) <|
    Eq.trans (scan_loop_delimited rfl gh (by decide) (fun h => absurd h (by decide))
      (gmi.head_not_delimiter _) (by simp)) <|
    Eq.trans (scan_loop_delimited rfl gmi (by decide) (fun h => absurd h (by decide))
      (gs.head_not_delimiter _) (by simp)) <|
    Eq.trans (scan_loop_point rfl gs rfl) <|
    scan_loop_last rfl gf (by simp) (fun _ => rfl)
  obtain ⟨y0, ys, hy0⟩ := List.exists_cons_of_ne_nil gy.ne_nil
  have hy0d : my_isdigit_latin1 y0 = true := gy.digits y0 (by rw [hy0]; exact List.mem_cons_self)
  obtain ⟨tail, rfl⟩ : ∃ tail, text = y0 :: tail := ⟨_, by rw [← hx, hy0, List.cons_append]⟩
  unfold str_to_datetime
  simp only [List.dropWhile_cons, (isdigit_not_other hy0d).1, hy0d, hstart, Bool.false_eq_true,
    if_false, Bool.not_true]
  dsimp only at hloop
  rw [hloop]
  clear hloop hstart
  have hcd := check_date_of_day
    (l := { t with neg := false, time_type := MYSQL_TIMESTAMP_DATETIME })
    h.month_pos h.month h.day_pos h.day flags 0
  have hm0 : t.month ≠ 0 := by have := h.month_pos; omega
  have hspace : my_isspace_latin1 ' ' = true := rfl
  have hlog := log_10_int_getD (show DATETIME_MAX_DECIMALS - dec < 20 by
    simp only [DATETIME_MAX_DECIMALS]; omega)
  rw [List.getD_eq_getElem?_getD] at hlog
  have hsp : t.second_part ≤ 999999 := by have := h.second_part; omega
  simp [format_position, internal_format_positions, MAX_DATE_PARTS, Function.update_apply,
    check_datetime_range, hm0, zero_pad_length hdec hn, hlog, h.scale_back, hsp, hspace, hcd,
    trailing, my_time_status_init,
    Nat.not_lt.2 h.year, Nat.not_lt.2 h.month, Nat.not_lt.2 h.hour, Nat.not_lt.2 h.minute,
    Nat.not_lt.2 h.second, Nat.not_lt.2 hday31]

/-- **Datetime text round-trips**: `str_to_datetime`, under any flags, reads the text that
    `my_datetime_to_str` prints of a `DATETIME` back as the same seven parts, with no warning and
    `dec` fraction digits. -/
theorem str_to_datetime_my_datetime_to_str {t : MYSQL_TIME} {dec : Nat}
    (h : Datetime_text_ok t dec) (l_time : MYSQL_TIME) (flags : Nat) :
    str_to_datetime (my_datetime_to_str t dec).2 l_time flags =
      (false, { t with neg := false, time_type := MYSQL_TIMESTAMP_DATETIME }, ⟨0, dec, 0⟩) := by
  rcases Nat.eq_zero_or_pos dec with hdec | hdec
  · exact str_to_datetime_datetime_text_zero h l_time flags hdec
  · exact str_to_datetime_datetime_text_pos h l_time flags hdec

/-- 2024-02-29 13:05:09.1234, printed with four fraction digits, reads back. -/
theorem str_to_datetime_my_datetime_to_str_leap_day :
    Datetime_text_ok ⟨2024, 2, 29, 13, 5, 9, 123400, false, MYSQL_TIMESTAMP_DATETIME⟩ 4 ∧
    str_to_datetime (my_datetime_to_str ⟨2024, 2, 29, 13, 5, 9, 123400, false,
        MYSQL_TIMESTAMP_DATETIME⟩ 4).2 (set_zero_time MYSQL_TIMESTAMP_NONE) 0 =
      (false, ⟨2024, 2, 29, 13, 5, 9, 123400, false, MYSQL_TIMESTAMP_DATETIME⟩, ⟨0, 4, 0⟩) := by
  have hok : Datetime_text_ok ⟨2024, 2, 29, 13, 5, 9, 123400, false, MYSQL_TIMESTAMP_DATETIME⟩ 4 :=
    ⟨⟨by decide, by decide, by decide, by decide, by decide⟩, by decide, by decide, by decide,
      by decide, by decide, by decide⟩
  exact ⟨hok, str_to_datetime_my_datetime_to_str hok _ _⟩

open str_to_datetime in
/-- The text of a date is read as the same date at midnight, and refused when only a datetime
    is asked for: it has a delimiter and no space. -/
theorem str_to_datetime_date_text {t : MYSQL_TIME} (h : Date_text_ok t)
    (l_time : MYSQL_TIME) (flags : Nat) :
    str_to_datetime (my_date_to_str t).2 l_time flags =
      if flags &&& TIME_DATETIME_ONLY = 0 then
        (false, { t with
          hour := 0, minute := 0, second := 0, second_part := 0, neg := false,
          time_type := MYSQL_TIMESTAMP_DATE }, ⟨0, 0, 0⟩)
      else (true, { l_time with time_type := MYSQL_TIMESTAMP_NONE },
        ⟨MYSQL_TIME_WARN_TRUNCATED, 0, 0⟩) := by
  have hday31 := h.day_le
  have hy4 : t.year < 10 ^ 4 := by have := h.year; norm_num; omega
  have gy := Digit_group.zero_pad (show 0 < 4 by decide) (by decide) hy4
  have gm := Digit_group.zero_pad (n := t.month) (show 0 < 2 by decide) (by decide)
    (by have := h.month; norm_num; omega)
  have gd := Digit_group.zero_pad (n := t.day) (show 0 < 2 by decide) (by decide)
    (by norm_num; omega)
  have htext : (my_date_to_str t).2 =
      zero_pad 4 t.year ++ '-' :: (zero_pad 2 t.month ++ '-' :: zero_pad 2 t.day) := by
    simp [my_date_to_str]
  generalize hx : (my_date_to_str t).2 = text
  rw [htext] at hx
  have hstart : start text flags = some ⟨false, 0, 4, 0, fun _ => 0⟩ := by
    rw [← hx]
    exact start_of_delimited gy.digits (c := '-') (by decide) (by decide) (by decide) flags
  -- the loop: the year and the month each end at a dash, the day at the end of the text
  have hloop : scan_loop false allow_space (MAX_DATE_PARTS - 1)
      ⟨text, 0, fun _ => 0, Function.update (fun _ => 0) (format_position 0) 0, 4, 0, false,
        false, text, 0⟩ = some _ :=
    Eq.trans (scan_loop_delimited hx.symm gy (by decide) (fun h => absurd h (by decide))
      (gm.head_not_delimiter _) (by simp)) <|
    Eq.trans (scan_loop_delimited rfl gm (by decide) (fun h => absurd h (by decide))
      (by simpa using gd.head_not_delimiter []) (by simp)) <|
    scan_loop_last rfl gd (by simp) (fun h => absurd h (by show ¬(2 = format_position 6); decide))
  obtain ⟨y0, ys, hy0⟩ := List.exists_cons_of_ne_nil gy.ne_nil
  have hy0d : my_isdigit_latin1 y0 = true := gy.digits y0 (by rw [hy0]; exact List.mem_cons_self)
  obtain ⟨tail, rfl⟩ : ∃ tail, text = y0 :: tail := ⟨_, by rw [← hx, hy0, List.cons_append]⟩
  unfold str_to_datetime
  simp only [List.dropWhile_cons, (isdigit_not_other hy0d).1, hy0d, hstart, Bool.false_eq_true,
    if_false, Bool.not_true]
  dsimp only at hloop
  rw [hloop]
  clear hloop hstart
  -- the end: three fields make a `DATE`, and the parts after them are 0
  have hcd := check_date_of_day (l := { t with
      hour := 0, minute := 0, second := 0, second_part := 0, neg := false,
      time_type := MYSQL_TIMESTAMP_DATE })
    h.month_pos h.month h.day_pos h.day flags 0
  have hm0 : t.month ≠ 0 := by have := h.month_pos; omega
  have hdash : my_isspace_latin1 '-' = false := rfl
  simp [hdash, format_position, internal_format_positions, MAX_DATE_PARTS, Function.update_apply,
    zero_pad_length (show 0 < 4 by decide) hy4, check_datetime_range, hm0, hcd, trailing,
    my_time_status_init, Nat.not_lt.2 h.year, Nat.not_lt.2 h.month,
    Nat.not_lt.2 hday31]
/-- **Date text round-trips**: unless only a datetime is asked for, `str_to_datetime` reads the
    text that `my_date_to_str` prints of a date back as the same date, at midnight. -/
theorem str_to_datetime_my_date_to_str {t : MYSQL_TIME} (h : Date_text_ok t)
    (l_time : MYSQL_TIME) {flags : Nat} (hflags : flags &&& TIME_DATETIME_ONLY = 0) :
    str_to_datetime (my_date_to_str t).2 l_time flags =
      (false, { t with
        hour := 0, minute := 0, second := 0, second_part := 0, neg := false,
        time_type := MYSQL_TIMESTAMP_DATE }, ⟨0, 0, 0⟩) := by
  rw [str_to_datetime_date_text h l_time flags, if_pos hflags]

/-- 2024-02-29 reads back from its text. -/
theorem str_to_datetime_my_date_to_str_leap_day :
    Date_text_ok ⟨2024, 2, 29, 0, 0, 0, 0, false, MYSQL_TIMESTAMP_DATE⟩ ∧
    (0 : Nat) &&& TIME_DATETIME_ONLY = 0 ∧
    str_to_datetime (my_date_to_str ⟨2024, 2, 29, 0, 0, 0, 0, false, MYSQL_TIMESTAMP_DATE⟩).2
        (set_zero_time MYSQL_TIMESTAMP_NONE) 0 =
      (false, ⟨2024, 2, 29, 0, 0, 0, 0, false, MYSQL_TIMESTAMP_DATE⟩, ⟨0, 0, 0⟩) := by
  have hok : Date_text_ok ⟨2024, 2, 29, 0, 0, 0, 0, false, MYSQL_TIMESTAMP_DATE⟩ :=
    ⟨by decide, by decide, by decide, by decide, by decide⟩
  have hflags : (0 : Nat) &&& TIME_DATETIME_ONLY = 0 := by decide
  exact ⟨hok, hflags, str_to_datetime_my_date_to_str hok _ hflags⟩

/-- **A date is not a datetime**: with `TIME_DATETIME_ONLY`, `str_to_datetime` refuses the text
    that `my_date_to_str` prints, with `MYSQL_TIME_WARN_TRUNCATED`, and leaves `l_time` but its
    type. -/
theorem str_to_datetime_my_date_to_str_datetime_only {t : MYSQL_TIME} (h : Date_text_ok t)
    (l_time : MYSQL_TIME) {flags : Nat} (hflags : flags &&& TIME_DATETIME_ONLY ≠ 0) :
    str_to_datetime (my_date_to_str t).2 l_time flags =
      (true, { l_time with time_type := MYSQL_TIMESTAMP_NONE },
        ⟨MYSQL_TIME_WARN_TRUNCATED, 0, 0⟩) := by
  rw [str_to_datetime_date_text h l_time flags, if_neg hflags]

/-- 2024-02-29 is refused when only a datetime is asked for. -/
theorem str_to_datetime_my_date_to_str_datetime_only_leap_day :
    Date_text_ok ⟨2024, 2, 29, 0, 0, 0, 0, false, MYSQL_TIMESTAMP_DATE⟩ ∧
    TIME_DATETIME_ONLY &&& TIME_DATETIME_ONLY ≠ 0 ∧
    str_to_datetime (my_date_to_str ⟨2024, 2, 29, 0, 0, 0, 0, false, MYSQL_TIMESTAMP_DATE⟩).2
        (set_zero_time MYSQL_TIMESTAMP_NONE) TIME_DATETIME_ONLY =
      (true, set_zero_time MYSQL_TIMESTAMP_NONE, ⟨MYSQL_TIME_WARN_TRUNCATED, 0, 0⟩) := by
  have hok : Date_text_ok ⟨2024, 2, 29, 0, 0, 0, 0, false, MYSQL_TIMESTAMP_DATE⟩ :=
    ⟨by decide, by decide, by decide, by decide, by decide⟩
  have hflags : TIME_DATETIME_ONLY &&& TIME_DATETIME_ONLY ≠ 0 := by decide
  exact ⟨hok, hflags, str_to_datetime_my_date_to_str_datetime_only hok _ hflags⟩

end MyTime
end AliSql
