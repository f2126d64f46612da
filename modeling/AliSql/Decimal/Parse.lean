import Mathlib
import AliSql.Decimal.Round
import AliSql.Libc.Basic

/-!
# DECIMAL values from text (`strings/decimal.c`, `strings/my_strtoll10.c`)

`internal_str2dec` reads white space, a sign, the integer digits, a point and the
fraction digits. It sizes the number, with `FIX_INTG_FRAC_ERROR` or, when `fixed`,
against the precision `to` already has. The integer words are filled from the point
outward, nine digits to a word, and the fraction words from the point on. An exponent
after `e` or `E` is read by `my_strtoll10` and applied with `decimal_shift`.
`my_strtoll10` reads a decimal integer of a fixed-length text in blocks: nine digits
into `i`, nine into `j`, one or two into `k`, and checks the last block against cutoffs
for the sign.

The text is the list of characters from `from` to `*end`, one `latin1` byte each. A
position is an offset into it, and so is `*end` on return. A `longlong` result wraps as
GCC compiles it (`Int.bmod _ (2 ^ 64)`).

What the module shows, over a `Mantissa`, the text of white space, a sign, digits and a
point with digits, followed by a text that does not go on with it. A mantissa whose
digits fit the buffer without a cut, and after which no exponent starts, is read as its
number with `E_DEC_OK`, and `*end` is left after it (`internal_str2dec_mantissa`): the
integer loop writes its words from the point backward (`str2dec.int_part_spec`), the
fraction loop from the point on, padded with zeros (`str2dec.frac_part_spec`). The integer digits are counted with their leading zeros,
so a number of more than 81 digits overflows even when all but a few are zeros, and the
overflow then also skips the exponent (`internal_str2dec_leading_zeros`).
-/

set_option autoImplicit false

namespace AliSql

open Libc Radix

/-! ## `my_strtoll10` -/

def MY_ERRNO_EDOM : Int := 33
def MY_ERRNO_ERANGE : Int := 34

def MAX_NEGATIVE_NUMBER : Nat := 0x8000000000000000
def ULONGLONG_MAX : Nat := 2 ^ 64 - 1
def INIT_CNT : Nat := 9
def LFACTOR : Nat := 1000000000
def LFACTOR1 : Nat := 10000000000
def LFACTOR2 : Nat := 100000000000

/-- `lfactor[i]`, for `i < 9`. -/
def lfactor (i : Nat) : Nat := 10 ^ i

/-- `c - '0'`, for a digit `c`. -/
def dig (c : Char) : Nat := c.toNat - '0'.toNat

/-- The loops `for (; s != n_end; s++)` that add digits to `i` and `j`: at most `n`
    digits from position `s` on, appended to `acc`; the number, and the position where
    the reading stopped, at a non-digit or after the `n`-th digit. -/
def my_strtoll10.digits (str : List Char) : Nat → Nat → Nat → Nat × Nat
  | 0, s, acc => (acc, s)
  | n + 1, s, acc =>
    if isdigit (str.getD s '\x00') then
      my_strtoll10.digits str n (s + 1) (acc * 10 + dig (str.getD s '\x00'))
    else (acc, s)

/-- `(longlong) li` and `-((longlong) li)`: a magnitude with its sign, as a `longlong`. -/
def my_strtoll10.signed (negative : Bool) (li : Nat) : Int :=
  Int.bmod (if negative then -(li : Int) else li) (2 ^ 64)

/-- `my_strtoll10(nptr, &endptr, &error)` with `*endptr` set, on the characters `str`
    from `nptr` to `*endptr`: the value, the characters read (where `*endptr` is left),
    and `*error`. -/
def my_strtoll10 (str : List Char) : Int × Nat × Int :=
  let end_ := str.length
  let no_conv : Int × Nat × Int := (0, 0, MY_ERRNO_EDOM)
  let s := (str.takeWhile fun c => c = ' ' || c = '\t').length
  if s = end_ then no_conv
  else
    let negative := str.getD s '\x00' = '-'
    let error : Int := if negative then -1 else 0
    let s := if negative || str.getD s '\x00' = '+' then s + 1 else s
    if s = end_ then no_conv
    else
      let m := if negative then MAX_NEGATIVE_NUMBER else ULONGLONG_MAX
      let overflow (s : Nat) : Int × Nat × Int :=
        (if negative then LLONG_MIN else -1, s, MY_ERRNO_ERANGE)
      -- a run of pre-zeros, or a first digit: `i`, where the digits go on, and `n_end`
      let first : Option (Nat × Nat × Nat) :=
        if str.getD s '\x00' = '0' then
          let s := s + ((str.drop s).takeWhile (· = '0')).length
          some (0, s, if s = end_ then s else s + INIT_CNT)
        else if isdigit (str.getD s '\x00') then
          some (dig (str.getD s '\x00'), s + 1, s + INIT_CNT)
        else none
      match first with
      | none => no_conv
      | some (i, s, n_end) =>
        let n_end := min n_end end_
        let (i, s) := my_strtoll10.digits str (n_end - s) s i
        -- end_i
        if s ≠ n_end ∨ s = end_ then (my_strtoll10.signed negative i, s, error)
        else
          let start := s
          let true_end := s + INIT_CNT
          let n_end := min true_end end_
          let (j, s) := my_strtoll10.digits str (n_end - s) s 0
          let end_i_and_j :=
            (my_strtoll10.signed negative (i * lfactor (s - start) + j), s, error)
          let end3 := (my_strtoll10.signed negative (i * LFACTOR + j), s, error)
          if s ≠ n_end then end_i_and_j
          else if s = end_ then (if s ≠ true_end then end_i_and_j else end3)
          else if ¬ isdigit (str.getD s '\x00') then end3
          else
            let k := dig (str.getD s '\x00')
            let s := s + 1
            if s = end_ ∨ ¬ isdigit (str.getD s '\x00') then
              -- end4
              let li := i * LFACTOR1 + j * 10 + k
              if negative ∧ li > MAX_NEGATIVE_NUMBER then overflow s
              else (my_strtoll10.signed negative li, s, error)
            else
              let k := k * 10 + dig (str.getD s '\x00')
              let s := s + 1
              -- the number should have ended here
              if s ≠ end_ ∧ isdigit (str.getD s '\x00') then overflow s
              else if i > m / LFACTOR2 ∨ (i = m / LFACTOR2 ∧ (j > m % LFACTOR2 / 100 ∨
                  (j = m % LFACTOR2 / 100 ∧ k > m % 100))) then overflow s
              else (Int.bmod (i * LFACTOR2 + j * 100 + k : Nat) (2 ^ 64), s, error)

example : my_strtoll10 " -0012x".toList = (-12, 6, -1) := by decide
example : my_strtoll10 "18446744073709551615".toList = (-1, 20, 0) := by decide
example : my_strtoll10 "18446744073709551616".toList = (-1, 20, MY_ERRNO_ERANGE) := by decide

/-! ## `internal_str2dec` -/

def E_DEC_OOM : Nat := 16

def INT_MAX : Int := 2 ^ 31 - 1
def INT_MIN : Int := -2 ^ 31

/-- `my_isspace(&my_charset_latin1, c)`: the bit `_MY_SPC` of `ctype_latin1`, set for
    `\t` to `\r`, the space and the no-break space `0xA0`. -/
def my_isspace_latin1 (c : Char) : Bool := ('\t' ≤ c && c ≤ '\r') || c = ' ' || c = '\xa0'

/-- `my_isdigit(&my_charset_latin1, c)`: the bit `_MY_NMR`, set for the ten digits. -/
def my_isdigit_latin1 (c : Char) : Bool := '0' ≤ c && c ≤ '9'

/-- The loop `for (x=0, i=0; intg; intg--)`: the `intg` digits before position `s`, read
    backward, `x` holding the `i` digits of the word being filled; a full word is stored
    at `*--buf`, with `buf` at word `b`, and a partial one after the loop. -/
def str2dec.int_part (str : List Char) :
    Nat → Nat → Int → Nat → Nat → List Int → List Int
  | 0, _, x, i, b, buf => if i ≠ 0 then buf.set (b - 1) x else buf
  | intg + 1, s, x, i, b, buf =>
    let x := x + (dig (str.getD (s - 1) '\x00') : Int) * powers10 i
    if i + 1 = DIG_PER_DEC1 then
      str2dec.int_part str intg (s - 1) 0 0 (b - 1) (buf.set (b - 1) x)
    else str2dec.int_part str intg (s - 1) x (i + 1) b buf

/-- The loop `for (x=0, i=0; frac; frac--)`: the `frac` digits after position `s1`, read
    forward; a full word is stored at `*buf++`, and a partial one after the loop, padded
    with zeros to nine digits. -/
def str2dec.frac_part (str : List Char) :
    Nat → Nat → Int → Nat → Nat → List Int → List Int
  | 0, _, x, i, b, buf =>
    if i ≠ 0 then buf.set b (x * powers10 (DIG_PER_DEC1 - i)) else buf
  | frac + 1, s1, x, i, b, buf =>
    let x := (dig (str.getD (s1 + 1) '\x00') : Int) + x * 10
    if i + 1 = DIG_PER_DEC1 then
      str2dec.frac_part str frac (s1 + 1) 0 0 (b + 1) (buf.set b x)
    else str2dec.frac_part str frac (s1 + 1) x (i + 1) b buf

/-- The digits kept, the integer words, and the error: with `fixed`, at most the
    precision `to` has, and `none` (`E_DEC_OOM`) when that does not fit its buffer;
    otherwise what `FIX_INTG_FRAC_ERROR` leaves, in whole words when it cut. -/
def str2dec.size (to_ : decimal_t) (fixed : Bool) (intg frac : Nat) :
    Option (Nat × Nat × Nat × Nat) :=
  if fixed then
    let (error, frac) := if frac > to_.frac then (E_DEC_TRUNCATED, to_.frac) else (E_DEC_OK, frac)
    let (error, intg) := if intg > to_.intg then (E_DEC_OVERFLOW, to_.intg) else (error, intg)
    if ROUND_UP intg + ROUND_UP frac > to_.len then none
    else some (intg, frac, ROUND_UP intg, error)
  else
    let (intg1, frac1, error) := fix_intg_frac_error to_.len (ROUND_UP intg) (ROUND_UP frac)
    let frac := if error ≠ E_DEC_OK then frac1 * DIG_PER_DEC1 else frac
    let intg := if error = E_DEC_OVERFLOW then intg1 * DIG_PER_DEC1 else intg
    some (intg, frac, intg1, error)

/-- The exponent: an `e` or `E` with a character after it. When `my_strtoll10` reads a
    number there, `*end` moves past it, and the number is checked and applied to `to`
    unless the mantissa overflowed. -/
def str2dec.exponent (str : List Char) (to_ : decimal_t) (endp error : Nat) :
    decimal_t × Nat × Nat :=
  if endp + 1 < str.length ∧ (str.getD endp '\x00' = 'e' ∨ str.getD endp '\x00' = 'E') then
    let (exponent, n, str_error) := my_strtoll10 (str.drop (endp + 1))
    if n = 0 then (to_, endp, error)
    else
      let end_ := endp + 1 + n
      if str_error > 0 then (decimal_make_zero to_, end_, E_DEC_BAD_NUM)
      else if exponent > INT_MAX.tdiv 2 ∨ (str_error = 0 ∧ exponent < 0) then
        (decimal_make_zero to_, end_, E_DEC_OVERFLOW)
      else if exponent < INT_MIN.tdiv 2 ∧ error ≠ E_DEC_OVERFLOW then
        (decimal_make_zero to_, end_, E_DEC_TRUNCATED)
      else if error ≠ E_DEC_OVERFLOW then
        let r := decimal_shift to_ exponent
        (r.1, end_, r.2)
      else (to_, end_, error)
  else (to_, endp, error)

/-- The scan of the text: the white space, after which there must be something (`none`
    otherwise), a sign, the integer digits, and a point with the fraction digits. The
    sign, the position after the integer digits, their number, the number of fraction
    digits, and `endp`, the position after them. -/
def str2dec.scan (str : List Char) : Option (Bool × Nat × Nat × Nat × Nat) :=
  let s := (str.takeWhile my_isspace_latin1).length
  if s = str.length then none
  else
    let c := str.getD s '\x00'
    let s := if c = '-' ∨ c = '+' then s + 1 else s
    let intg := ((str.drop s).takeWhile my_isdigit_latin1).length
    let s := s + intg
    if s < str.length ∧ str.getD s '\x00' = '.' then
      let frac := ((str.drop (s + 1)).takeWhile my_isdigit_latin1).length
      some (c = '-', s, intg, frac, s + 1 + frac)
    else some (c = '-', s, intg, 0, s)

/-- `internal_str2dec(from, to, &end, fixed)`, on the characters `str` from `from` to
    `*end`: the decimal, where `*end` is left, and the error. -/
def internal_str2dec (str : List Char) (to_ : decimal_t) (fixed : Bool) :
    decimal_t × Nat × Nat :=
  match str2dec.scan str with
  | none => (decimal_make_zero to_, str.length, E_DEC_BAD_NUM)
  | some (sign, s, intg, frac, endp) =>
    let to_ := { to_ with sign := sign }
    if frac + intg = 0 then (decimal_make_zero to_, endp, E_DEC_BAD_NUM)
    else
      match str2dec.size to_ fixed intg frac with
      | none => (decimal_make_zero to_, endp, E_DEC_OOM)
      | some (intg, frac, intg1, error) =>
        let buf := str2dec.int_part str intg s 0 0 intg1 to_.buf
        let buf := str2dec.frac_part str frac s 0 0 intg1 buf
        str2dec.exponent str { to_ with intg := intg, frac := frac, buf := buf } endp error

example : internal_str2dec " -12.5e3".toList decimal_nine false =
    (⟨5, 0, 9, true, [12500, 0, 0, 0, 0, 0, 0, 0, 0]⟩, 8, E_DEC_OK) := by decide

/-! ## Decimal literals as text -/

/-- The mantissa of a decimal literal: white space, a sign, the integer digits, and,
    after a point, the fraction digits. -/
structure Mantissa where
  space : List Char
  sign : Option Char
  int_digits : List Char
  frac_digits : Option (List Char)

/-- The point and the fraction digits, as text. -/
def Mantissa.point_text (m : Mantissa) : List Char :=
  match m.frac_digits with
  | none => []
  | some fs => '.' :: fs

/-- The mantissa as text. -/
def Mantissa.text (m : Mantissa) : List Char :=
  m.space ++ m.sign.toList ++ m.int_digits ++ m.point_text

/-- The number of fraction digits. -/
def Mantissa.frac_len (m : Mantissa) : Nat := (m.frac_digits.getD []).length

/-- Each part of the mantissa is made of what its name says. -/
structure Mantissa.Ok (m : Mantissa) : Prop where
  space : ∀ c ∈ m.space, my_isspace_latin1 c = true
  sign : m.sign = none ∨ m.sign = some '+' ∨ m.sign = some '-'
  int_digits : ∀ c ∈ m.int_digits, my_isdigit_latin1 c = true
  frac_digits : ∀ c ∈ m.frac_digits.getD [], my_isdigit_latin1 c = true

/-- The text `rest` after the mantissa does not go on with it: no digit follows, no
    point when there was none, and, after white space alone, nothing the white space or
    a sign could take. -/
structure Mantissa.Ends (m : Mantissa) (rest : List Char) : Prop where
  digit : ∀ c, rest.head? = some c → my_isdigit_latin1 c = false
  point : m.frac_digits = none → rest.head? ≠ some '.'
  space : m.sign = none → m.int_digits = [] → m.frac_digits = none →
    ∀ c, rest.head? = some c → my_isspace_latin1 c = false ∧ c ≠ '+' ∧ c ≠ '-'

/-- A scan stops at the end of a run: `p` holds on `xs` and not on what comes next. -/
theorem takeWhile_length_of_run {α : Type} {p : α → Bool} (xs r : List α)
    (hxs : ∀ c ∈ xs, p c = true) (hr : ∀ c, r.head? = some c → p c = false) :
    ((xs ++ r).takeWhile p).length = xs.length := by
  rw [List.takeWhile_append_of_pos hxs]
  cases r with
  | nil => simp
  | cons c r => simp [hr c rfl]

theorem getD_append_length (xs ys : List Char) (k : Nat) (d : Char) :
    (xs ++ ys).getD (xs.length + k) d = ys.getD k d := by
  simp [List.getD_eq_getElem?_getD, List.getElem?_append_right]

/-- A group of `n` digits is below `10^n`, with what stood before it shifted past them. -/
theorem ofDigitChars_lt (ds : List Char) (hds : ∀ c ∈ ds, my_isdigit_latin1 c = true) (t : Nat) :
    Nat.ofDigitChars 10 ds t < (t + 1) * 10 ^ ds.length := by
  induction ds generalizing t with
  | nil => simp
  | cons c ds ih =>
    have hc := hds c List.mem_cons_self
    have hlt : c.toNat - '0'.toNat < 10 := by
      simp only [my_isdigit_latin1, Bool.and_eq_true, decide_eq_true_eq, Char.le_def,
        UInt32.le_iff_toNat_le] at hc
      simp only [Char.toNat]
      simp at hc ⊢
      omega
    have ih' := ih (fun d hd => hds d (List.mem_cons_of_mem _ hd)) (10 * t + (c.toNat - '0'.toNat))
    rw [Nat.ofDigitChars_cons, List.length_cons, Nat.pow_succ]
    have hstep : 10 * t + (c.toNat - '0'.toNat) + 1 ≤ 10 * (t + 1) := by omega
    calc Nat.ofDigitChars 10 ds (10 * t + (c.toNat - '0'.toNat))
        < (10 * t + (c.toNat - '0'.toNat) + 1) * 10 ^ ds.length := ih'
      _ ≤ 10 * (t + 1) * 10 ^ ds.length := Nat.mul_le_mul_right _ hstep
      _ = (t + 1) * (10 ^ ds.length * 10) := by ring

/-- A digit is neither white space, nor a sign, nor the point. -/
theorem isdigit_not_other {c : Char} (h : my_isdigit_latin1 c = true) :
    my_isspace_latin1 c = false ∧ c ≠ '+' ∧ c ≠ '-' ∧ c ≠ '.' := by
  simp only [my_isdigit_latin1, Bool.and_eq_true, decide_eq_true_eq] at h
  obtain ⟨h0, h9⟩ := h
  simp only [my_isspace_latin1, Bool.or_eq_false_iff, Bool.and_eq_false_iff,
    decide_eq_false_iff_not]
  -- the digits lie above the controls, the space, the signs and the point, and below
  -- the no-break space
  refine ⟨⟨⟨Or.inr fun h' => absurd (le_trans h0 h') (by decide), ?_⟩, ?_⟩, ?_, ?_, ?_⟩
  all_goals rintro rfl
  · exact absurd h0 (by decide)
  · exact absurd h9 (by decide)
  · exact absurd h0 (by decide)
  · exact absurd h0 (by decide)
  · exact absurd h0 (by decide)

/-- The character after the white space of a mantissa. -/
theorem Mantissa.head_after (m : Mantissa) (rest : List Char) (hm : m.Ok) (he : m.Ends rest) :
    ∀ c, (m.sign.toList ++ m.int_digits ++ m.point_text ++ rest).head? = some c →
      my_isspace_latin1 c = false ∧ ((c = '-' ∨ c = '+') ↔ m.sign.isSome) ∧
        (c = '-' ↔ m.sign = some '-') := by
  intro c hc
  rcases hm.sign with hs | hs | hs
  · -- no sign: the first digit, the point, or what follows the white space
    have hc' : (m.int_digits ++ m.point_text ++ rest).head? = some c := by simpa [hs] using hc
    have hnot : my_isspace_latin1 c = false ∧ c ≠ '+' ∧ c ≠ '-' := by
      cases hds : m.int_digits with
      | cons d ds =>
        obtain rfl : d = c := by simpa [hds] using hc'
        obtain ⟨h1, h2, h3, -⟩ := isdigit_not_other (hm.int_digits d (by simp [hds]))
        exact ⟨h1, h2, h3⟩
      | nil =>
        cases hfd : m.frac_digits with
        | some fs =>
          obtain rfl : '.' = c := by simpa [Mantissa.point_text, hfd, hds] using hc'
          decide
        | none =>
          obtain ⟨h1, h2, h3⟩ := he.space hs hds hfd c
            (by simpa [Mantissa.point_text, hfd, hds] using hc')
          exact ⟨h1, h2, h3⟩
    simp [hs, hnot.1, hnot.2.1, hnot.2.2]
  · obtain rfl : '+' = c := by simpa [hs] using hc
    simp [hs]
    decide
  · obtain rfl : '-' = c := by simpa [hs] using hc
    simp [hs]
    decide

/-- What the scan reads of a mantissa followed by a text that does not go on with it. -/
theorem str2dec.scan_text (m : Mantissa) (rest : List Char) (hm : m.Ok) (he : m.Ends rest)
    (hne : m.sign.toList ++ m.int_digits ++ m.point_text ++ rest ≠ []) :
    str2dec.scan (m.text ++ rest) =
      some (decide (m.sign = some '-'),
        m.space.length + m.sign.toList.length + m.int_digits.length,
        m.int_digits.length, m.frac_len, m.text.length) := by
  obtain ⟨c, tl, hct⟩ := List.exists_cons_of_ne_nil hne
  obtain ⟨hsp, hsign, hminus⟩ := m.head_after rest hm he c (by rw [hct]; rfl)
  have hstr : m.text ++ rest =
      m.space ++ (m.sign.toList ++ m.int_digits ++ m.point_text ++ rest) := by
    simp [Mantissa.text, List.append_assoc]
  -- the white space, and the sign after it
  have h1 : ((m.text ++ rest).takeWhile my_isspace_latin1).length = m.space.length := by
    rw [hstr, hct]
    exact takeWhile_length_of_run _ _ hm.space fun c' h => by cases h; exact hsp
  have h2 : m.space.length ≠ (m.text ++ rest).length := by
    rw [hstr, hct]
    simp
  have h3 : (m.text ++ rest).getD m.space.length '\x00' = c := by
    rw [hstr, hct, ← Nat.add_zero m.space.length, getD_append_length]
    rfl
  have h4 : (if c = '-' ∨ c = '+' then m.space.length + 1 else m.space.length) =
      m.space.length + m.sign.toList.length := by
    cases hs : m.sign with
    | none =>
      have hc : ¬ (c = '-' ∨ c = '+') := by simp [hsign, hs]
      simp [hc]
    | some x =>
      have hc : c = '-' ∨ c = '+' := by simp [hsign, hs]
      simp [hc]
  -- the integer digits, up to the point or to what follows them
  have hafter : (m.text ++ rest).drop (m.space.length + m.sign.toList.length) =
      m.int_digits ++ (m.point_text ++ rest) := by
    simp [hstr, List.drop_append, List.append_assoc]
  have h5 : ((m.int_digits ++ (m.point_text ++ rest)).takeWhile my_isdigit_latin1).length =
      m.int_digits.length := by
    refine takeWhile_length_of_run _ _ hm.int_digits fun c' h => ?_
    cases hfd : m.frac_digits with
    | none => exact he.digit c' (by simpa [Mantissa.point_text, hfd] using h)
    | some fs =>
      obtain rfl : '.' = c' := by simpa [Mantissa.point_text, hfd] using h
      decide
  have hpos : (m.text ++ rest).getD
      (m.space.length + m.sign.toList.length + m.int_digits.length) '\x00' =
      (m.point_text ++ rest).getD 0 '\x00' := by
    rw [hstr, ← Nat.add_zero (_ + _ + _)]
    simp only [List.append_assoc]
    rw [← List.length_append, ← List.length_append, ← List.append_assoc,
      ← List.append_assoc, getD_append_length]
  unfold str2dec.scan
  simp only [h1, h3]
  rw [if_neg h2, h4, hafter, h5, hpos]
  have htext : m.text.length =
      m.space.length + m.sign.toList.length + m.int_digits.length + m.point_text.length := by
    simp only [Mantissa.text, List.length_append]
  -- a point, and the fraction digits up to what follows them; or no point
  cases hfd : m.frac_digits with
  | none =>
    have hpt : m.point_text = [] := by simp [Mantissa.point_text, hfd]
    have hnp : ¬ ((m.point_text ++ rest).getD 0 '\x00' = '.') := by
      rw [hpt]
      cases rest with
      | nil => decide
      | cons r rs => simpa using he.point hfd
    rw [if_neg (fun h => hnp h.2)]
    simp [Mantissa.frac_len, hfd, htext, hpt, hminus]
  | some fs =>
    have hpt : m.point_text = '.' :: fs := by simp [Mantissa.point_text, hfd]
    have hsplit : m.text ++ rest =
        (m.space ++ m.sign.toList ++ m.int_digits ++ ['.']) ++ (fs ++ rest) := by
      simp [Mantissa.text, hpt]
    have hdrop : (m.text ++ rest).drop
        (m.space.length + m.sign.toList.length + m.int_digits.length + 1) = fs ++ rest := by
      rw [hsplit]
      exact List.drop_left' (by simp only [List.length_append, List.length_singleton])
    have hfrac : ((fs ++ rest).takeWhile my_isdigit_latin1).length = fs.length :=
      takeWhile_length_of_run _ _ (by simpa [hfd] using hm.frac_digits) he.digit
    have hlen : m.space.length + m.sign.toList.length + m.int_digits.length <
        (m.text ++ rest).length := by
      rw [List.length_append, htext, hpt, List.length_cons]
      omega
    rw [if_pos ⟨hlen, by simp [hpt]⟩, hdrop, hfrac]
    simp [Mantissa.frac_len, hfd, htext, hpt, hminus]
    omega

/-- The number a run of digits spells. -/
def digits_num (cs : List Char) : Int :=
  (cs.map fun c => (dig c : Int)).foldl (fun a w => a * 10 + w) 0

/-- The number a mantissa writes. -/
def Mantissa.value (m : Mantissa) : ℚ :=
  (if m.sign = some '-' then -1 else 1) *
    (digits_num m.int_digits + digits_num (m.frac_digits.getD []) / 10 ^ m.frac_len)

theorem digits_num_append_digit (cs : List Char) (c : Char) :
    digits_num (cs ++ [c]) = digits_num cs * 10 + dig c := by
  simp [digits_num, List.foldl_append]

theorem digits_num_cons (c : Char) (cs : List Char) :
    digits_num (c :: cs) = dig c * 10 ^ cs.length + digits_num cs := by
  rw [digits_num, List.map_cons, List.foldl_cons, foldl_mul_add_eq 10, List.length_map]
  simp [digits_num]

/-! ## The digit loops -/

/-- `r` words of nine digits hold `f ≤ 9 r` digits and `9 r - f` zeros after them. -/
theorem DIG_BASE_pow_split (f r : Nat) (h : f ≤ DIG_PER_DEC1 * r) :
    DIG_BASE ^ r = 10 ^ f * 10 ^ (DIG_PER_DEC1 * r - f) := by
  rw [← pow_add, Nat.add_sub_cancel' h, pow_mul]
  rfl

/-- The integer loop over the digits `D` before position `s`, with `x` holding the `i`
    digits after them: the words before word `b` become `D` and those digits, in
    `ROUND_UP (|D| + i)` words of base `DIG_BASE`. -/
theorem str2dec.int_part_spec (pre : List Char) :
    ∀ (D post : List Char) (x : Int) (i b : Nat) (buf : List Int),
      i < DIG_PER_DEC1 → (i = 0 → x = 0) → ROUND_UP (D.length + i) ≤ b →
      b ≤ buf.length →
      ∃ W : List Int,
        str2dec.int_part (pre ++ D ++ post) D.length (pre.length + D.length) x i b buf =
          buf.take (b - W.length) ++ W ++ buf.drop b ∧
        W.length = ROUND_UP (D.length + i) ∧
        W.foldl (fun a w => a * DIG_BASE + w) 0 = digits_num D * 10 ^ i + x := by
  intro D
  induction D using List.reverseRecOn with
  | nil =>
    intro post x i b buf hi hx hb hbuf
    simp only [List.length_nil, Nat.add_zero, Nat.zero_add] at hb ⊢
    rw [str2dec.int_part]
    by_cases hi0 : i = 0
    · -- nothing pending: no word
      refine ⟨[], ?_, ?_, ?_⟩
      · simp [hi0]
      · simp [hi0, ROUND_UP, DIG_PER_DEC1]
      · simp [digits_num, hx hi0]
    · -- the pending digits make one word, at `b - 1`
      have hb1 : 1 ≤ b := by simp only [ROUND_UP, DIG_PER_DEC1] at hb; omega
      refine ⟨[x], ?_, ?_, ?_⟩
      · rw [if_pos hi0, List.set_eq_take_append_cons_drop, if_pos (by omega)]
        simp [Nat.sub_add_cancel hb1]
      · simp only [ROUND_UP, DIG_PER_DEC1] at hi ⊢
        simp only [List.length_singleton]
        omega
      · simp [digits_num]
  | append_singleton D d ih =>
    intro post x i b buf hi hx hb hbuf
    -- the last digit is read first, and the rest of `D` with it counted in `post`
    have hstr : pre ++ (D ++ [d]) ++ post = pre ++ D ++ ([d] ++ post) := by simp
    have hd : (pre ++ D ++ ([d] ++ post)).getD (pre.length + D.length) '\x00' = d := by
      rw [← List.length_append, ← Nat.add_zero (pre ++ D).length, getD_append_length]
      rfl
    rw [List.length_append, List.length_singleton] at hb
    rw [hstr, List.length_append, List.length_singleton, ← Nat.add_assoc, str2dec.int_part,
      Nat.add_sub_cancel, hd]
    by_cases h9 : i + 1 = DIG_PER_DEC1
    · -- a full word at `b - 1`, and the words of `D` before it
      rw [if_pos h9]
      have hR : ROUND_UP (D.length + 1 + i) = ROUND_UP D.length + 1 := by
        simp only [ROUND_UP, DIG_PER_DEC1] at h9 ⊢
        omega
      have hb1 : 1 ≤ b := by omega
      obtain ⟨W, hW, hlen, hval⟩ := ih ([d] ++ post) 0 0 (b - 1)
        (buf.set (b - 1) (x + (dig d : Int) * powers10 i)) (by decide) (fun _ => rfl)
        (by rw [Nat.add_zero]; omega) (by simp only [List.length_set]; omega)
      refine ⟨W ++ [x + (dig d : Int) * powers10 i], ?_, ?_, ?_⟩
      · rw [hW, List.take_set_of_le (by omega), List.drop_set, if_neg (by omega), Nat.sub_self,
          List.drop_eq_getElem_cons (by omega), List.set_cons_zero]
        simp [Nat.sub_sub, Nat.sub_add_cancel hb1, Nat.add_comm]
      · rw [List.length_append, hlen, hR, Nat.add_zero, List.length_singleton]
      · rw [List.foldl_append, hval, List.foldl_cons, List.foldl_nil, digits_num_append_digit]
        simp only [DIG_PER_DEC1] at h9
        obtain rfl : i = 8 := by omega
        simp only [powers10, DIG_BASE]
        ring
    · -- one more digit in the pending word
      rw [if_neg h9]
      have hb' : ROUND_UP (D.length + (i + 1)) ≤ b := by
        rwa [Nat.add_assoc, Nat.add_comm 1 i] at hb
      obtain ⟨W, hW, hlen, hval⟩ := ih ([d] ++ post) (x + (dig d : Int) * powers10 i) (i + 1)
        b buf (by omega) (by omega) hb' hbuf
      refine ⟨W, hW, ?_, ?_⟩
      · rw [hlen]
        congr 1
        omega
      · rw [hval, digits_num_append_digit, powers10, pow_succ]
        ring

/-- The fraction loop over the digits `F` after position `s1`, with `x` holding the `i`
    digits before them: the words from word `b` on become those digits and `F`, with
    zeros after them to whole words, in `ROUND_UP (i + |F|)` words of base `DIG_BASE`. -/
theorem str2dec.frac_part_spec :
    ∀ (F pre post : List Char) (s1 : Nat) (x : Int) (i b : Nat) (buf : List Int),
      pre.length = s1 + 1 → i < DIG_PER_DEC1 → (i = 0 → x = 0) →
      b + ROUND_UP (i + F.length) ≤ buf.length →
      ∃ W : List Int,
        str2dec.frac_part (pre ++ F ++ post) F.length s1 x i b buf =
          buf.take b ++ W ++ buf.drop (b + W.length) ∧
        W.length = ROUND_UP (i + F.length) ∧
        W.foldl (fun a w => a * DIG_BASE + w) 0 = (x * 10 ^ F.length + digits_num F) *
          10 ^ (DIG_PER_DEC1 * ROUND_UP (i + F.length) - (i + F.length)) := by
  intro F
  induction F with
  | nil =>
    intro pre post s1 x i b buf _ hi hx hb
    simp only [List.length_nil, Nat.add_zero] at hb ⊢
    rw [str2dec.frac_part]
    by_cases hi0 : i = 0
    · -- nothing pending: no word
      refine ⟨[], ?_, ?_, ?_⟩
      · simp [hi0]
      · simp [hi0, ROUND_UP, DIG_PER_DEC1]
      · simp [digits_num, hx hi0]
    · -- the pending digits, padded with zeros, make the word at `b`
      have hR : ROUND_UP i = 1 := by
        simp only [ROUND_UP, DIG_PER_DEC1] at hi ⊢
        omega
      refine ⟨[x * powers10 (DIG_PER_DEC1 - i)], ?_, ?_, ?_⟩
      · rw [if_pos hi0, List.set_eq_take_append_cons_drop, if_pos (by omega)]
        simp
      · rw [hR, List.length_singleton]
      · simp [digits_num, hR, powers10]
  | cons d F ih =>
    intro pre post s1 x i b buf hpre hi hx hb
    -- the first digit is read first, and the rest of `F` with it counted in `pre`
    have hstr : pre ++ (d :: F) ++ post = (pre ++ [d]) ++ F ++ post := by simp
    have hd : ((pre ++ [d]) ++ F ++ post).getD (s1 + 1) '\x00' = d := by
      rw [← hpre, ← Nat.add_zero pre.length, List.append_assoc, List.append_assoc,
        getD_append_length]
      rfl
    have hpre' : (pre ++ [d]).length = s1 + 1 + 1 := by simp [hpre]
    rw [List.length_cons] at hb ⊢
    rw [hstr, str2dec.frac_part, hd]
    have hFR : F.length ≤ DIG_PER_DEC1 * ROUND_UP F.length := by
      simp only [ROUND_UP, DIG_PER_DEC1]
      omega
    by_cases h9 : i + 1 = DIG_PER_DEC1
    · -- a full word at `b`, and the words of `F` after it
      rw [if_pos h9]
      have hR : ROUND_UP (i + (F.length + 1)) = ROUND_UP F.length + 1 := by
        simp only [ROUND_UP, DIG_PER_DEC1] at h9 ⊢
        omega
      have hb' : b + 1 + ROUND_UP (0 + F.length) ≤
          (buf.set b ((dig d : Int) + x * 10)).length := by
        rw [List.length_set, Nat.zero_add]
        omega
      obtain ⟨W, hW, hlen, hval⟩ := ih (pre ++ [d]) post (s1 + 1) 0 0 (b + 1)
        (buf.set b ((dig d : Int) + x * 10)) hpre' (by decide) (fun _ => rfl) hb'
      refine ⟨((dig d : Int) + x * 10) :: W, ?_, ?_, ?_⟩
      · have hfirst : (buf.set b ((dig d : Int) + x * 10)).take (b + 1) =
            buf.take b ++ [(dig d : Int) + x * 10] := by
          rw [List.take_add_one, List.take_set_of_le le_rfl, List.getElem?_set_self (by omega)]
          rfl
        rw [hW, List.drop_set_of_lt (by omega), hfirst, List.length_cons]
        simp [Nat.add_comm 1, Nat.add_assoc]
      · rw [List.length_cons, hlen, hR, Nat.zero_add]
      · rw [List.foldl_cons, foldl_mul_add_eq DIG_BASE, hval, hlen, hR, digits_num_cons]
        -- the word is the leading part, `DIG_BASE ^ ROUND_UP |F|` above the words of `F`
        simp only [DIG_PER_DEC1] at h9
        obtain rfl : i = 8 := by omega
        have hE : DIG_PER_DEC1 * (ROUND_UP F.length + 1) - (8 + (F.length + 1)) =
            DIG_PER_DEC1 * ROUND_UP F.length - F.length := by
          simp only [DIG_PER_DEC1]
          omega
        rw [Nat.zero_add, hE, DIG_BASE_pow_split _ _ hFR]
        ring
    · -- one more digit in the pending word
      rw [if_neg h9]
      have hb' : b + ROUND_UP (i + 1 + F.length) ≤ buf.length := by
        rwa [show i + 1 + F.length = i + (F.length + 1) by omega]
      obtain ⟨W, hW, hlen, hval⟩ := ih (pre ++ [d]) post (s1 + 1) ((dig d : Int) + x * 10)
        (i + 1) b buf hpre' (by omega) (by omega) hb'
      refine ⟨W, hW, ?_, ?_⟩
      · rw [hlen]
        congr 1
        omega
      · rw [hval, digits_num_cons, show i + 1 + F.length = i + (F.length + 1) by omega, pow_succ]
        ring

/-! ## What `internal_str2dec` reads -/

/-- **Leading zeros count as digits.** Eighty-one zeros before `1e1` make 82 integer
    digits, ten words where the buffer has nine: `FIX_INTG_FRAC_ERROR` keeps the last 81
    digits, the number 1, with `E_DEC_OVERFLOW`, and the overflow skips the exponent.
    Without the zeros the same number is read as 10. -/
theorem internal_str2dec_leading_zeros :
    internal_str2dec (List.replicate 81 '0' ++ "1e1".toList) decimal_nine false =
        (⟨81, 0, 9, false, [0, 0, 0, 0, 0, 0, 0, 0, 1]⟩, 84, E_DEC_OVERFLOW) ∧
      (⟨81, 0, 9, false, [0, 0, 0, 0, 0, 0, 0, 0, 1]⟩ : decimal_t).value = 1 ∧
      internal_str2dec "1e1".toList decimal_nine false =
        (⟨2, 0, 9, false, [10, 0, 0, 0, 0, 0, 0, 0, 0]⟩, 3, E_DEC_OK) ∧
      (⟨2, 0, 9, false, [10, 0, 0, 0, 0, 0, 0, 0, 0]⟩ : decimal_t).value = 10 := by
  refine ⟨by decide, ?_, by decide, ?_⟩ <;>
    simp [decimal_t.value, ROUND_UP, DIG_PER_DEC1, DIG_BASE]

/-- Without a cut, the size keeps every digit. -/
theorem str2dec.size_fit (to_ : decimal_t) (intg frac : Nat)
    (h : ROUND_UP intg + ROUND_UP frac ≤ to_.len) :
    str2dec.size to_ false intg frac = some (intg, frac, ROUND_UP intg, E_DEC_OK) := by
  have h' : ¬ ROUND_UP intg + ROUND_UP frac > to_.len := by omega
  simp [str2dec.size, fix_intg_frac_error, h', E_DEC_OK, E_DEC_OVERFLOW]

/-- Where no `e` or `E` stands, there is no exponent. -/
theorem str2dec.exponent_none (str : List Char) (to_ : decimal_t) (endp error : Nat)
    (h : str.getD endp '\x00' ≠ 'e' ∧ str.getD endp '\x00' ≠ 'E') :
    str2dec.exponent str to_ endp error = (to_, endp, error) := by
  rw [str2dec.exponent, if_neg (by tauto)]

theorem str2dec.frac_part_zero (str : List Char) (s1 b : Nat) (buf : List Int) :
    str2dec.frac_part str 0 s1 0 0 b buf = buf := rfl

/-- **A mantissa is read exactly.** White space, a sign, integer digits and a point with
    fraction digits, that fit the buffer without a cut and are followed by a text that
    neither goes on with them nor starts an exponent: `internal_str2dec` stores their
    number, leaves `*end` after them, and returns `E_DEC_OK`. -/
theorem internal_str2dec_mantissa (m : Mantissa) (rest : List Char) (to_ : decimal_t)
    (hm : m.Ok) (he : m.Ends rest) (hdig : m.int_digits ≠ [] ∨ m.frac_len ≠ 0)
    (hfit : ROUND_UP m.int_digits.length + ROUND_UP m.frac_len ≤ to_.len)
    (hbuf : to_.buf.length = to_.len)
    (hexp : rest.head? ≠ some 'e' ∧ rest.head? ≠ some 'E') :
    (internal_str2dec (m.text ++ rest) to_ false).2 = (m.text.length, E_DEC_OK) ∧
      (internal_str2dec (m.text ++ rest) to_ false).1.value = m.value := by
  have hne : m.sign.toList ++ m.int_digits ++ m.point_text ++ rest ≠ [] := by
    rcases hdig with h | h
    · simp [h]
    · cases hfd : m.frac_digits with
      | none => simp [Mantissa.frac_len, hfd] at h
      | some fs => simp [Mantissa.point_text, hfd]
  have hsum0 : ¬ m.frac_len + m.int_digits.length = 0 := by
    rcases hdig with h | h
    · simp [h]
    · omega
  -- the integer words, written backward from word `ROUND_UP intg`
  obtain ⟨Wi, hWi, hlenWi, hvalWi⟩ := str2dec.int_part_spec (m.space ++ m.sign.toList)
    m.int_digits (m.point_text ++ rest) 0 0 (ROUND_UP m.int_digits.length) to_.buf (by decide)
    (fun _ => rfl) le_rfl (by omega)
  rw [show m.space ++ m.sign.toList ++ m.int_digits ++ (m.point_text ++ rest) = m.text ++ rest
    by simp [Mantissa.text], List.length_append, hlenWi, Nat.add_zero, Nat.sub_self,
    List.take_zero, List.nil_append] at hWi
  rw [Nat.add_zero] at hlenWi
  rw [pow_zero, mul_one, add_zero] at hvalWi
  -- the fraction words, written forward from there
  obtain ⟨Wf, hWf, hlenWf, hvalWf⟩ : ∃ Wf : List Int,
      str2dec.frac_part (m.text ++ rest) m.frac_len
          (m.space.length + m.sign.toList.length + m.int_digits.length) 0 0
          (ROUND_UP m.int_digits.length) (Wi ++ to_.buf.drop (ROUND_UP m.int_digits.length)) =
        Wi ++ Wf ++ to_.buf.drop (ROUND_UP m.int_digits.length + Wf.length) ∧
      Wf.length = ROUND_UP m.frac_len ∧
      Wf.foldl (fun a w => a * DIG_BASE + w) 0 = digits_num (m.frac_digits.getD []) *
        10 ^ (DIG_PER_DEC1 * ROUND_UP m.frac_len - m.frac_len) := by
    cases hfd : m.frac_digits with
    | none =>
      refine ⟨[], ?_, ?_, ?_⟩
      · simp [Mantissa.frac_len, hfd, str2dec.frac_part_zero]
      · simp [Mantissa.frac_len, hfd, ROUND_UP, DIG_PER_DEC1]
      · simp [digits_num]
    | some fs =>
      have hfl : m.frac_len = fs.length := by simp [Mantissa.frac_len, hfd]
      obtain ⟨W, hW, hl, hv⟩ := str2dec.frac_part_spec fs
        (m.space ++ m.sign.toList ++ m.int_digits ++ ['.']) rest
        (m.space.length + m.sign.toList.length + m.int_digits.length) 0 0
        (ROUND_UP m.int_digits.length) (Wi ++ to_.buf.drop (ROUND_UP m.int_digits.length))
        (by simp only [List.length_append, List.length_singleton]) (by decide) (fun _ => rfl)
        (by simp only [List.length_append, List.length_drop, hlenWi, Nat.zero_add, ← hfl]; omega)
      rw [show m.space ++ m.sign.toList ++ m.int_digits ++ ['.'] ++ fs ++ rest = m.text ++ rest
        by simp [Mantissa.text, Mantissa.point_text, hfd], ← hfl, List.take_left' hlenWi] at hW
      -- past the integer words, the words after the fraction words are the buffer's
      have hrest : (Wi ++ to_.buf.drop (ROUND_UP m.int_digits.length)).drop
          (ROUND_UP m.int_digits.length + W.length) =
          to_.buf.drop (ROUND_UP m.int_digits.length + W.length) := by
        rw [List.drop_append, @List.drop_eq_nil_of_le _ Wi _ (by omega), List.nil_append,
          hlenWi, Nat.add_sub_cancel_left, List.drop_drop]
      refine ⟨W, ?_, ?_, ?_⟩
      · rw [hW, hrest]
      · rw [hl, Nat.zero_add, hfl]
      · rw [hv, Nat.zero_add, zero_mul, zero_add, hfl, Option.getD_some]
  -- no `e` or `E` after the mantissa
  have hno : (m.text ++ rest).getD m.text.length '\x00' ≠ 'e' ∧
      (m.text ++ rest).getD m.text.length '\x00' ≠ 'E' := by
    rw [← Nat.add_zero m.text.length, getD_append_length]
    cases rest with
    | nil => decide
    | cons r rs => simpa using hexp
  unfold internal_str2dec
  rw [str2dec.scan_text m rest hm he hne]
  dsimp only
  rw [if_neg hsum0, str2dec.size_fit { to_ with sign := decide (m.sign = some '-') } _ _ hfit]
  dsimp only
  rw [hWi, hWf, str2dec.exponent_none _ _ _ _ hno]
  refine ⟨rfl, ?_⟩
  -- the words read as the integer digits, `DIG_BASE ^ ROUND_UP frac` above the fraction
  -- digits padded to whole words
  have hFR : m.frac_len ≤ DIG_PER_DEC1 * ROUND_UP m.frac_len := by
    simp only [ROUND_UP, DIG_PER_DEC1]
    omega
  have htake : (Wi ++ Wf ++ to_.buf.drop (ROUND_UP m.int_digits.length + Wf.length)).take
      (ROUND_UP m.int_digits.length + ROUND_UP m.frac_len) = Wi ++ Wf :=
    List.take_left' (by rw [List.length_append, hlenWi, hlenWf])
  have hsum : (Wi ++ Wf).foldl (fun a w => a * DIG_BASE + w) 0 =
      digits_num m.int_digits * DIG_BASE ^ ROUND_UP m.frac_len +
        digits_num (m.frac_digits.getD []) *
          10 ^ (DIG_PER_DEC1 * ROUND_UP m.frac_len - m.frac_len) := by
    rw [List.foldl_append, foldl_mul_add_eq DIG_BASE Wf, hvalWi, hlenWf, hvalWf]
  have hBq : (DIG_BASE : ℚ) ^ ROUND_UP m.frac_len =
      10 ^ m.frac_len * 10 ^ (DIG_PER_DEC1 * ROUND_UP m.frac_len - m.frac_len) := by
    exact_mod_cast DIG_BASE_pow_split m.frac_len (ROUND_UP m.frac_len) hFR
  have hq : ∀ A F : ℚ, (A * (10 ^ m.frac_len *
      10 ^ (DIG_PER_DEC1 * ROUND_UP m.frac_len - m.frac_len)) +
        F * 10 ^ (DIG_PER_DEC1 * ROUND_UP m.frac_len - m.frac_len)) /
      (10 ^ m.frac_len * 10 ^ (DIG_PER_DEC1 * ROUND_UP m.frac_len - m.frac_len)) =
        A + F / 10 ^ m.frac_len := by
    intro A F
    field_simp
  simp only [decimal_t.value, htake, hsum]
  push_cast
  rw [hBq, hq]
  unfold Mantissa.value
  by_cases hs : m.sign = some '-' <;> simp [hs]

/-- `-12.5` is read whole into nine words. -/
theorem internal_str2dec_mantissa_negative :
    (internal_str2dec ((⟨[], some '-', ['1', '2'], some ['5']⟩ : Mantissa).text ++ [])
        decimal_nine false).2 =
        ((⟨[], some '-', ['1', '2'], some ['5']⟩ : Mantissa).text.length, E_DEC_OK) ∧
      (internal_str2dec ((⟨[], some '-', ['1', '2'], some ['5']⟩ : Mantissa).text ++ [])
        decimal_nine false).1.value = (⟨[], some '-', ['1', '2'], some ['5']⟩ : Mantissa).value := by
  have hm : (⟨[], some '-', ['1', '2'], some ['5']⟩ : Mantissa).Ok :=
    ⟨by simp, by simp, by simp [my_isdigit_latin1], by simp [my_isdigit_latin1]⟩
  have he : (⟨[], some '-', ['1', '2'], some ['5']⟩ : Mantissa).Ends [] :=
    ⟨by simp, by simp, by simp⟩
  exact internal_str2dec_mantissa _ [] decimal_nine hm he (Or.inl (by simp)) (by decide) rfl
    (by simp)

end AliSql
