import Mathlib
import AliSql.Include.Myisampack

/-!
# DECIMAL values and their binary form (`strings/decimal.c`)

A `decimal_t` keeps its digits in words of nine decimal digits (`dec1`, an `int32`):
first `ROUND_UP(intg)` words for the integer part, most significant first, the first of
them holding `intg mod 9` digits when that is not 0, then `ROUND_UP(frac)` words for the
fraction, the last of them holding its digits at the top. `decimal2bin` writes the
fixed-length form of a column `DECIMAL(precision, frac)`: a partial leading group of
`dig2bytes[intg mod 9]` bytes, the whole words as four bytes each, a partial trailing group,
everything complemented for a negative number and the top bit of the first byte flipped,
so that `memcmp` orders the forms as the numbers. `bin2decimal` reads such a form back and
checks every group.

What the module shows about them:

* `decimal2bin` does not truncate a fraction of one more digit than the column, where both need the
  same number of bytes: the last group is written with the number's digit count and read
  with the column's (`decimal2bin_extra_digit`);
* `bin2decimal` accepts a leading group up to `10^(intg0x+1) - 1` instead of
  `10^intg0x - 1`, and computes the trailing group in 32-bit arithmetic before checking
  it, so it accepts forms that no number has (`bin2decimal_accepts_malformed`).

A word is an `Int`; `(uint32) x` and `(ulonglong) x` are `x` modulo `2^32` and `2^64`; the
`int32` product of the trailing group wraps modulo `2^32`, as GCC compiles it (C leaves the
overflow undefined). A buffer of words is a list, read with `getD` as C reads the words
the caller allocated, and written with `set`.
-/

set_option autoImplicit false

namespace AliSql

/-! ## The representation -/

/-- `struct st_decimal_t`. -/
structure decimal_t where
  intg : Nat
  frac : Nat
  len : Nat
  sign : Bool
  buf : List Int
deriving DecidableEq, Repr

def DIG_PER_DEC1 : Nat := 9
def DIG_BASE : Int := 1000000000
def DIG_MAX : Int := DIG_BASE - 1

/-- `ROUND_UP(X)`: the words `X` digits take. -/
def ROUND_UP (x : Nat) : Nat := (x + DIG_PER_DEC1 - 1) / DIG_PER_DEC1

/-- `powers10[i]`, for `i ≤ 9`. -/
def powers10 (i : Nat) : Int := 10 ^ i

/-- `dig2bytes[i]`: the bytes a group of `i ≤ 9` digits takes. -/
def dig2bytes : Nat → Nat
  | 0 => 0
  | 1 | 2 => 1
  | 3 | 4 => 2
  | 5 | 6 => 3
  | _ => 4

def E_DEC_OK : Nat := 0
def E_DEC_TRUNCATED : Nat := 1
def E_DEC_OVERFLOW : Nat := 2
def E_DEC_BAD_NUM : Nat := 8

/-- `decimal_make_zero`. -/
def decimal_make_zero (d : decimal_t) : decimal_t :=
  { d with buf := d.buf.set 0 0, intg := 1, frac := 0, sign := false }

/-- `x ^ mask` for a `mask` of 0 or -1. -/
def xor_mask (x mask : Int) : Int := Int.xor x mask

/-- `decimal_bin_size(precision, scale)`. -/
def decimal_bin_size (precision scale : Nat) : Nat :=
  let intg := precision - scale
  (intg / DIG_PER_DEC1) * 4 + dig2bytes (intg % DIG_PER_DEC1) +
    (scale / DIG_PER_DEC1) * 4 + dig2bytes (scale % DIG_PER_DEC1)

theorem dig2bytes_le (i : Nat) : dig2bytes i ≤ 4 := by
  unfold dig2bytes
  split <;> omega

/-- Nine digits take four bytes: the binary form is never longer than the digits and two
    partial groups. -/
theorem decimal_bin_size_le (precision scale : Nat) :
    decimal_bin_size precision scale ≤ precision + scale + 8 := by
  have h1 := dig2bytes_le ((precision - scale) % DIG_PER_DEC1)
  have h2 := dig2bytes_le (scale % DIG_PER_DEC1)
  simp only [decimal_bin_size, DIG_PER_DEC1] at *
  omega

/-- `count_leading_zeroes(i, val)`: how many of `10^i`, `10^(i-1)`, …, `1` exceed `val`,
    from the top; the unrolled `switch` falls through from `case i`. -/
def count_leading_zeroes : Nat → Int → Nat
  | 0, val => if val ≥ 1 then 0 else 1
  | i + 1, val => if val ≥ 10 ^ (i + 1) then 0 else count_leading_zeroes i val + 1

/-- The loop of `remove_leading_zeroes`: skip the zero words of the integer part, `i`
    digits for the first and nine for each after. -/
def remove_leading_zeroes.loop : Nat → Nat → List Int → Nat × List Int
  | intg, i, w :: ws => if 0 < intg ∧ w = 0 then loop (intg - i) DIG_PER_DEC1 ws else (intg, w :: ws)
  | intg, _, [] => (intg, [])

/-- `remove_leading_zeroes(from, &intg_result)`: the words from the first non-zero one of
    the integer part on, and the number of integer digits without leading zeros. -/
def remove_leading_zeroes (from_ : decimal_t) : List Int × Nat :=
  let r := remove_leading_zeroes.loop from_.intg ((from_.intg - 1) % DIG_PER_DEC1 + 1) from_.buf
  if 0 < r.1 then
    (r.2, r.1 - count_leading_zeroes ((r.1 - 1) % DIG_PER_DEC1) (r.2.headD 0))
  else (r.2, 0)

example : remove_leading_zeroes ⟨10, 2, 9, false, [0, 12345, 0, 0, 0, 0, 0, 0, 0]⟩ =
    ([12345, 0, 0, 0, 0, 0, 0, 0], 5) := by decide

/-! ## `decimal2bin` -/

/-- `orig_to[0]^= 0x80`. -/
def flip_first : List UInt8 → List UInt8
  | [] => []
  | b :: bs => (b ^^^ 0x80) :: bs

/-- The loop `while (frac1x < lim && dig2bytes[frac1x] == i) frac1x++`, with `k` the
    steps left before `lim`. -/
def widen_frac.go (i : Nat) : Nat → Nat → Nat
  | 0, x => x
  | k + 1, x => if dig2bytes x = i then go i k (x + 1) else x

/-- The trailing group takes as many digits as fit in its bytes, up to `lim`. -/
def widen_frac (i lim x : Nat) : Nat := widen_frac.go i (lim - x) x

/-- The integer part of `decimal2bin`: with more integer digits than the column has, the
    leading words that do not fit are skipped and the error is `E_DEC_OVERFLOW`; with fewer
    bytes than the column's, the bytes of `mask` pad them. The error, the words left, the
    integer words and digits to write, and the padding. -/
def decimal2bin.fit_intg (mask : Int) (intg from_intg : Nat) (buf1 : List Int)
    (intg0 intg0x : Nat) : Nat × List Int × Nat × Nat × List UInt8 :=
  let intg1 := from_intg / DIG_PER_DEC1
  let intg1x := from_intg % DIG_PER_DEC1
  let isize0 := intg0 * 4 + dig2bytes intg0x
  let isize1 := intg1 * 4 + dig2bytes intg1x
  if intg < from_intg then
    (E_DEC_OVERFLOW,
      buf1.drop (intg1 - intg0 + (if 0 < intg1x then 1 else 0) - (if 0 < intg0x then 1 else 0)),
      intg0, intg0x, [])
  else if isize0 > isize1 then
    (E_DEC_OK, buf1, intg1, intg1x, List.replicate (isize0 - isize1) (uchar_of mask))
  else (E_DEC_OK, buf1, intg1, intg1x, [])

/-- The fraction of `decimal2bin`: with more fraction bytes than the column's, the fraction
    is cut to the column's and the error is `E_DEC_TRUNCATED`; with fewer, the last group
    is widened to the column's digits, or written whole and the rest padded. The error,
    the whole fraction words and trailing digits to write, and the fraction size padded up
    to. -/
def decimal2bin.fit_frac (error frac0 frac0x frac1 frac1x : Nat) : Nat × Nat × Nat × Nat :=
  let fsize0 := frac0 * 4 + dig2bytes frac0x
  let fsize1 := frac1 * 4 + dig2bytes frac1x
  if fsize0 < fsize1 then (E_DEC_TRUNCATED, frac0, frac0x, fsize0)
  else if fsize0 > fsize1 ∧ frac1x ≠ 0 then
    if frac0 = frac1 then (error, frac1, frac0x, fsize1) else (error, frac1 + 1, 0, fsize0)
  else (error, frac1, frac1x, fsize0)

/-- `decimal2bin(from, to, precision, frac)`: the bytes written and the error. -/
def decimal2bin (from_ : decimal_t) (precision frac : Nat) : List UInt8 × Nat :=
  let mask : Int := if from_.sign then -1 else 0
  let intg := precision - frac
  let intg0 := intg / DIG_PER_DEC1
  let frac0 := frac / DIG_PER_DEC1
  let intg0x := intg % DIG_PER_DEC1
  let frac0x := frac % DIG_PER_DEC1
  let frac1 := from_.frac / DIG_PER_DEC1
  let frac1x := from_.frac % DIG_PER_DEC1
  let isize0 := intg0 * 4 + dig2bytes intg0x
  let fsize0 := frac0 * 4 + dig2bytes frac0x
  let fsize1 := frac1 * 4 + dig2bytes frac1x
  let orig_size := isize0 + fsize0
  let r := remove_leading_zeroes from_
  let from_intg := r.2
  -- the number zero is written from the one word `mask`, set to 0
  let z : Int × Nat × List Int := if from_intg + fsize1 = 0 then (0, 1, [0]) else (mask, intg, r.1)
  let mask := z.1
  let o := decimal2bin.fit_intg mask z.2.1 from_intg z.2.2 intg0 intg0x
  let buf1 := o.2.1
  let intg1 := o.2.2.1
  let intg1x := o.2.2.2.1
  let f := decimal2bin.fit_frac o.1 frac0 frac0x frac1 frac1x
  let frac1 := f.2.1
  let frac1x := f.2.2.1
  let fsize0 := f.2.2.2
  -- intg1x part
  let head : List UInt8 :=
    if intg1x ≠ 0 then
      mi_int_store (dig2bytes intg1x) (xor_mask ((buf1.headD 0).tmod (powers10 intg1x)) mask)
    else []
  let buf1 := if intg1x ≠ 0 then buf1.drop 1 else buf1
  -- intg1+frac1 part
  let words : List UInt8 :=
    (List.range (intg1 + frac1)).flatMap fun k => mi_int4store (xor_mask (buf1.getD k 0) mask)
  let buf1 := buf1.drop (intg1 + frac1)
  -- frac1x part
  let tail : List UInt8 :=
    if frac1x ≠ 0 then
      let i := dig2bytes frac1x
      let lim := if frac1 < frac0 then DIG_PER_DEC1 else frac0x
      let frac1x := widen_frac i lim frac1x
      mi_int_store i (xor_mask ((buf1.headD 0).tdiv (powers10 (DIG_PER_DEC1 - frac1x))) mask)
    else []
  let out := o.2.2.2.2 ++ head ++ words ++ tail
  -- pad the fraction, up to the end of the column's bytes
  let pad : List UInt8 :=
    if fsize0 > fsize1 then
      List.replicate (min (fsize0 - fsize1) (orig_size - out.length)) (uchar_of mask)
    else []
  (flip_first (out ++ pad), f.1)

/-- The example of the comment above `decimal2bin` in the source. -/
example : (decimal2bin ⟨10, 4, 3, false, [1, 234567890, 123400000]⟩ 14 4).1 =
    [0x81, 0x0D, 0xFB, 0x38, 0xD2, 0x04, 0xD2] := by decide

example : (decimal2bin ⟨10, 4, 3, true, [1, 234567890, 123400000]⟩ 14 4).1 =
    [0x7E, 0xF2, 0x04, 0xC7, 0x2D, 0xFB, 0x2D] := by decide

/-! ## `bin2decimal` -/

/-- `FIX_INTG_FRAC_ERROR(len, intg1, frac1, error)`. -/
def fix_intg_frac_error (len intg1 frac1 : Nat) : Nat × Nat × Nat :=
  if intg1 + frac1 > len then
    if intg1 > len then (len, 0, E_DEC_OVERFLOW) else (intg1, len - intg1, E_DEC_TRUNCATED)
  else (intg1, frac1, E_DEC_OK)

/-- `mi_sint1korr` to `mi_sint4korr`, as the `switch (i)` picks them. -/
def mi_sintkorr (i : Nat) (A : List UInt8) : Int :=
  match i with
  | 1 => mi_sint1korr A
  | 2 => mi_sint2korr A
  | 3 => mi_sint3korr A
  | _ => mi_sint4korr A

/-- The words `bin2decimal` has written and where it is; `.error` carries the words at
    `goto err`. -/
structure Bin_reading where
  rest : List UInt8
  buf : List Int
  pos : Nat
  intg : Nat

/-- The loop over the whole integer words: a leading zero word is written and overwritten
    by the next, and takes nine digits off `intg`. -/
def bin2decimal.int_words (mask : Int) : Nat → Bin_reading → Except (List Int) Bin_reading
  | 0, r => .ok r
  | n + 1, r =>
    let w := xor_mask (mi_sint4korr r.rest) mask
    let buf := r.buf.set r.pos w
    if w % 2 ^ 32 > DIG_MAX then .error buf
    else if 0 < r.pos ∨ w ≠ 0 then int_words mask n ⟨r.rest.drop 4, buf, r.pos + 1, r.intg⟩
    else int_words mask n ⟨r.rest.drop 4, buf, r.pos, r.intg - DIG_PER_DEC1⟩

/-- The loop over the whole fraction words. -/
def bin2decimal.frac_words (mask : Int) : Nat → Bin_reading → Except (List Int) Bin_reading
  | 0, r => .ok r
  | n + 1, r =>
    let w := xor_mask (mi_sint4korr r.rest) mask
    let buf := r.buf.set r.pos w
    if w % 2 ^ 32 > DIG_MAX then .error buf
    else frac_words mask n ⟨r.rest.drop 4, buf, r.pos + 1, r.intg⟩

/-- `bin2decimal(from, to, precision, scale)`: the number read into `to` and the error. -/
def bin2decimal (from_ : List UInt8) (to_ : decimal_t) (precision scale : Nat) :
    decimal_t × Nat :=
  let intg := precision - scale
  let intg0 := intg / DIG_PER_DEC1
  let frac0 := scale / DIG_PER_DEC1
  let intg0x := intg % DIG_PER_DEC1
  let frac0x := scale % DIG_PER_DEC1
  let intg1 := intg0 + (if 0 < intg0x then 1 else 0)
  let frac1 := frac0 + (if 0 < frac0x then 1 else 0)
  let mask : Int := if (from_.headD 0) &&& 0x80 ≠ 0 then 0 else -1
  let d_copy := flip_first (from_.take (decimal_bin_size precision scale))
  let e := fix_intg_frac_error to_.len intg1 frac1
  let error := e.2.2
  -- a column too wide for `to`: drop its leading words, or its fraction
  let g : List UInt8 × Nat × Nat × Nat × Nat :=
    if error ≠ 0 then
      if e.1 < intg0 + (if 0 < intg0x then 1 else 0) then
        (d_copy.drop (dig2bytes intg0x + 4 * (intg0 - e.1)), e.1, 0, 0, 0)
      else (d_copy, intg0, intg0x, e.2.1, 0)
    else (d_copy, intg0, intg0x, frac0, frac0x)
  let intg0 := g.2.1
  let intg0x := g.2.2.1
  let frac0 := g.2.2.2.1
  let frac0x := g.2.2.2.2
  let to_ : decimal_t :=
    { to_ with
      sign := decide (mask ≠ 0)
      intg := intg0 * DIG_PER_DEC1 + intg0x
      frac := frac0 * DIG_PER_DEC1 + frac0x }
  let res : Except (List Int) Bin_reading := do
    -- the leading group
    let r ← if intg0x ≠ 0 then
        let i := dig2bytes intg0x
        let w := xor_mask (mi_sintkorr i g.1) mask
        let buf := to_.buf.set 0 w
        if w % 2 ^ 64 ≥ powers10 (intg0x + 1) then Except.error buf
        else if w ≠ 0 then pure ⟨g.1.drop i, buf, 1, to_.intg⟩
        else pure ⟨g.1.drop i, buf, 0, to_.intg - intg0x⟩
      else pure ⟨g.1, to_.buf, 0, to_.intg⟩
    let r ← bin2decimal.int_words mask intg0 r
    let r ← bin2decimal.frac_words mask frac0 r
    -- the trailing group, scaled up in `int32` arithmetic
    if frac0x ≠ 0 then
      let i := dig2bytes frac0x
      let w := Int.bmod (xor_mask (mi_sintkorr i r.rest) mask * powers10 (DIG_PER_DEC1 - frac0x))
        (2 ^ 32)
      let buf := r.buf.set r.pos w
      if w % 2 ^ 32 > DIG_MAX then Except.error buf
      else pure ⟨r.rest.drop i, buf, r.pos + 1, r.intg⟩
    else pure r
  match res with
  | .error buf => (decimal_make_zero { to_ with buf := buf }, E_DEC_BAD_NUM)
  | .ok r =>
    let to_ : decimal_t := { to_ with buf := r.buf, intg := r.intg }
    -- no digits: the number zero of unspecified precision
    (if to_.intg = 0 ∧ to_.frac = 0 then decimal_make_zero to_ else to_, error)

/-- A nine-word decimal of zeros, as the caller's buffer. -/
def decimal_nine : decimal_t := ⟨0, 0, 9, false, List.replicate 9 0⟩

example : bin2decimal [0x81, 0x0D, 0xFB, 0x38, 0xD2, 0x04, 0xD2] decimal_nine 14 4 =
    (⟨10, 4, 9, false, [1, 234567890, 123400000, 0, 0, 0, 0, 0, 0]⟩, E_DEC_OK) := by decide

/-! ## What a representation means -/

/-- The representation invariant of the comment on `st_decimal_t`, as the operations
    assume it: the words fit in the buffer, each is a digit of base `10^9`, the leading
    integer word has at most `intg mod 9` digits and the last fraction word no digit after
    `frac`. -/
def decimal_t.well_formed (d : decimal_t) : Bool :=
  let n := ROUND_UP d.intg + ROUND_UP d.frac
  decide (n ≤ d.len) && decide (d.buf.length = d.len) &&
    (d.buf.take n).all (fun w => decide (0 ≤ w ∧ w < DIG_BASE)) &&
    (decide (d.intg % DIG_PER_DEC1 = 0) || decide (d.buf.getD 0 0 < 10 ^ (d.intg % DIG_PER_DEC1))) &&
    (decide (d.frac % DIG_PER_DEC1 = 0) ||
      decide (d.buf.getD (n - 1) 0 % 10 ^ (DIG_PER_DEC1 - d.frac % DIG_PER_DEC1) = 0))

/-- The number the words denote: the integer and fraction words read as one number in
    base `10^9`, over `10^(9 · ROUND_UP(frac))`, with the sign. -/
def decimal_t.value (d : decimal_t) : ℚ :=
  let n := ROUND_UP d.intg + ROUND_UP d.frac
  let m : ℚ := ((d.buf.take n).foldl (fun a w => a * DIG_BASE + w) 0 : Int) /
    (DIG_BASE : ℚ) ^ ROUND_UP d.frac
  if d.sign then -m else m

/-! ## Where the forms and the numbers part -/

/-- `0.0120`, with a fraction of four digits, in a nine-word buffer. -/
def point_0120 : decimal_t := ⟨0, 4, 9, false, [12000000, 0, 0, 0, 0, 0, 0, 0, 0]⟩

/-- **A fraction one digit too long is not truncated.** For `DECIMAL(3,3)`, the fraction
    `0120` of `0.0120` takes the two bytes the column's three digits take, so neither
    branch on `fsize0` and `fsize1` adjusts it: the group is written as the four-digit
    number 120, which `bin2decimal` reads as the three digits `120`, the number `0.120`. -/
theorem decimal2bin_extra_digit :
    point_0120.well_formed = true ∧
      decimal2bin point_0120 3 3 = ([0x80, 0x78], E_DEC_OK) ∧
      bin2decimal [0x80, 0x78] decimal_nine 3 3 =
        (⟨0, 3, 9, false, [120000000, 0, 0, 0, 0, 0, 0, 0, 0]⟩, E_DEC_OK) ∧
      point_0120.value = 3 / 250 ∧
      (⟨0, 3, 9, false, [120000000, 0, 0, 0, 0, 0, 0, 0, 0]⟩ : decimal_t).value = 3 / 25 := by
  refine ⟨by decide, by decide, by decide, ?_, ?_⟩ <;>
    simp [decimal_t.value, point_0120, ROUND_UP, DIG_PER_DEC1, DIG_BASE] <;> norm_num

/-- **`bin2decimal` accepts forms no number has.** `DECIMAL(1,0)` has a leading group of
    one digit, checked against `powers10[2]`: the byte `8A` is read as the word 10 of a
    one-digit integer part. `DECIMAL(1,1)` has a trailing group of one digit, multiplied by
    `10^8` in 32-bit arithmetic: the byte `AB` is read as `43 · 10^8 mod 2^32 = 5032704`.
    Neither decimal is well formed, and `decimal2bin` writes `80` for each. -/
theorem bin2decimal_accepts_malformed :
    bin2decimal [0x8A] decimal_nine 1 0 =
        (⟨1, 0, 9, false, [10, 0, 0, 0, 0, 0, 0, 0, 0]⟩, E_DEC_OK) ∧
      (⟨1, 0, 9, false, [10, 0, 0, 0, 0, 0, 0, 0, 0]⟩ : decimal_t).well_formed = false ∧
      decimal2bin ⟨1, 0, 9, false, [10, 0, 0, 0, 0, 0, 0, 0, 0]⟩ 1 0 = ([0x80], E_DEC_OK) ∧
      bin2decimal [0xAB] decimal_nine 1 1 =
        (⟨0, 1, 9, false, [5032704, 0, 0, 0, 0, 0, 0, 0, 0]⟩, E_DEC_OK) ∧
      (⟨0, 1, 9, false, [5032704, 0, 0, 0, 0, 0, 0, 0, 0]⟩ : decimal_t).well_formed = false ∧
      decimal2bin ⟨0, 1, 9, false, [5032704, 0, 0, 0, 0, 0, 0, 0, 0]⟩ 1 1 = ([0x80], E_DEC_OK) := by
  decide

end AliSql
