import Mathlib
import AliSql.Decimal.Arith

/-!
# Rounding and shifting DECIMAL values (`strings/decimal.c`)

`decimal_round(from, to, scale, mode)` rounds to `scale` digits after the point (`scale`
may be negative). When `scale` is a multiple of nine the rounding position is a word
boundary and the dropped words decide; otherwise it is inside a word and only the first
dropped digit is looked at. A carry out of the rounded word runs up the words and may
need a new leading word, which shifts the whole buffer; a result of zero is written as
`0` with the fraction asked for.

`decimal_shift(dec, shift)` multiplies by `10^shift` in place: it finds the first and
last significant digits (`digits_bounds`), rounds away the fraction digits that would
not fit (`decimal_round`, `HALF_UP`), moves the digits by less than a word inside their
words (`do_mini_left_shift`, `do_mini_right_shift`) and then by whole words, and fills
the gap between the digits and the point with zero words.

The buffers are lists of words as in `AliSql.Decimal.Arith`, indexed by `Int` pointers;
a word read outside the list reads as 0, and a word written past its end is lost. Each
pointer loop is a recursion over the number of rounds its condition allows. `to == from`
is the flag `same`: the caller passes the one `decimal_t` as both.

What the module shows, each at a well-formed input:

* the exit that writes a rounded zero "with the proper scale" clears `frac0 + 1` words
  and sets `intg = 1`; with a fraction of nine words that is one word past the buffer,
  and the result is not well formed (`decimal_round_zero_past_buffer`);
* `HALF_EVEN` looks at the first dropped digit and the parity of the last kept one
  only, and `CEILING` inside a word at the first dropped digit only
  (`decimal_round_first_digit_only`);
* `decimal_shift` rounds the digits it drops and then compares the old end of the
  digits with their start: a carry that makes a new digit is lost
  (`decimal_shift_loses_carry`).
-/

set_option autoImplicit false

namespace AliSql

/-! ## `decimal_round` -/

/-- `decimal_round_mode`. -/
inductive decimal_round_mode where
  | TRUNCATE
  | HALF_EVEN
  | HALF_UP
  | CEILING
  | FLOOR
deriving DecidableEq, Repr

open decimal_round_mode

def DIG_MASK : Int := 100000000

/-- The digit the `switch (mode)` sets as `round_digit`: a dropped digit above it rounds
    the kept ones away from zero; `5` is ties decided by the mode. -/
def round_digit (mode : decimal_round_mode) (sign : Bool) : Int :=
  match mode with
  | HALF_UP | HALF_EVEN => 5
  | CEILING => if sign then 10 else 0
  | FLOOR => if sign then 0 else 10
  | TRUNCATE => 10

/-- `*p = 0` for the words from `a` up to `b`. -/
def zero_words (a b : Int) (buf : List Int) : List Int :=
  buf.mapIdx fun i w => if a ≤ i ∧ (i : Int) < b then 0 else w

/-- `while (buf0 < p0) *(--p1) = *(--p0)` from the start of both buffers: the first `n`
    words of `src` over `dst`. -/
def copy_words (n : Int) (src dst : List Int) : List Int :=
  dst.mapIdx fun i w => if (i : Int) < n then src.getD i 0 else w

/-- The rounding at a word boundary (`scale == frac0 * DIG_PER_DEC1`): the buffer and
    the pointer `buf1` after `do_inc`, or `none` for the `decimal_make_zero` when nothing
    is kept and nothing rounds up. -/
def decimal_round.at_boundary (buf : List Int) (mode : decimal_round_mode) (rd : Int)
    (intg0 frac0 frac1 : Int) : Option (List Int × Int) :=
  let i := intg0 + frac0 - 1
  let do_inc : Bool :=
    if rd = 0 then
      -- the scan of the dropped words for one that is not zero
      (List.range (frac1 - frac0).toNat).any fun k => word buf (i + 1 + k) ≠ 0
    else if rd = 5 then
      let x := (word buf (i + 1)).tdiv DIG_MASK
      decide (x > 5) || (decide (x = 5) &&
        (decide (mode = HALF_UP) || (decide (frac0 + intg0 > 0) && decide ((word buf i).tmod 2 = 1))))
    else false
  if do_inc then
    if frac0 + intg0 > 0 then some (store_word buf i (word buf i + 1), i)
    else some (store_word buf (i + 1) DIG_BASE, i + 1)
  else if frac0 + intg0 = 0 then none
  else some (buf, i)

/-- The rounding inside a word: only the digit `pos` places above the word's last one
    is looked at. -/
def decimal_round.in_word (buf : List Int) (mode : decimal_round_mode) (rd : Int)
    (intg0 frac0 scale : Int) : List Int × Int :=
  let i := intg0 + frac0 - 1
  let pos := (frac0 * DIG_PER_DEC1 - scale - 1).toNat
  let x := (word buf i).tdiv (powers10 pos)
  let y := x.tmod 10
  let x := if y > rd ∨ (rd = 5 ∧ y = 5 ∧ (mode = HALF_UP ∨ (x.tdiv 10).tmod 2 = 1)) then x + 10 else x
  (store_word buf i (powers10 pos * (x - y)), i)

/-- `for (buf1= to->buf + k; buf1 > to->buf; buf1--)`: each word moves up one place, and
    a place past the buffer is `E_DEC_OVERFLOW`. -/
def shift_words_up (len : Nat) : Nat → List Int → Nat → List Int × Nat
  | 0, buf, error => (buf, error)
  | i + 1, buf, error =>
    if i + 1 < len then shift_words_up len i (buf.set (i + 1) (buf.getD i 0)) error
    else shift_words_up len i buf E_DEC_OVERFLOW

/-- `for (;;) { if (*buf1) break; if (buf1-- == to->buf) … }`: the last word at or
    before `i` that is not zero, `none` when there is none. -/
def last_nonzero (buf : List Int) : Nat → Option Nat
  | 0 => if buf.getD 0 0 ≠ 0 then some 0 else none
  | i + 1 => if buf.getD (i + 1) 0 ≠ 0 then some (i + 1) else last_nonzero buf i

/-- Everything after the rounded word is set: the dropped words are cleared, a carry runs
    up (making a new leading word when it leaves the first), a zero result is written
    with the proper scale, and `intg` grows when the leading word gained a digit. -/
def decimal_round.finish (to_ : decimal_t) (buf : List Int) (buf1 : Int)
    (intg0 frac0 frac1 scale : Int) (error : Nat) : decimal_t × Nat :=
  let len : Int := to_.len
  let buf := if frac0 < frac1 then
      zero_words (if scale = 0 ∧ intg0 = 0 then 1 else intg0 + frac0) len buf
    else buf
  -- the new leading digit, `*buf1 >= powers10[first_dig]`
  let grow (to_ : decimal_t) (buf : List Int) (buf1 : Int) (scale : Int) (error : Nat) :
      decimal_t × Nat :=
    let first_dig := to_.intg % DIG_PER_DEC1
    let intg := if first_dig ≠ 0 ∧ word buf buf1 ≥ powers10 first_dig then to_.intg + 1
      else to_.intg
    ({ to_ with buf := buf, intg := intg, frac := (max scale 0).toNat }, error)
  if word buf buf1 ≥ DIG_BASE then
    let buf := store_word buf buf1 (word buf buf1 - DIG_BASE)
    let c := carry_down (fun w carry => ADD w 0 carry) buf true buf1.toNat buf buf1 buf1 1
    if c.2.2.2 ≠ 0 then
      -- shifting the number to create space for new digit
      let (frac0, scale, error) :=
        if frac0 + intg0 ≥ len then (frac0 - 1, (frac0 - 1) * DIG_PER_DEC1, E_DEC_TRUNCATED)
        else (frac0, scale, error)
      let s := shift_words_up to_.len (intg0 + max frac0 0).toNat c.1 error
      let buf := store_word s.1 0 1
      let (intg, error) := if to_.intg < to_.len * DIG_PER_DEC1 then (to_.intg + 1, s.2)
        else (to_.intg, E_DEC_OVERFLOW)
      grow { to_ with intg := intg } buf 0 scale error
    else grow to_ c.1 c.2.1 scale error
  else
    match last_nonzero buf buf1.toNat with
    | some j => grow to_ buf j scale error
    | none =>
      -- making 'zero' with the proper scale
      ({ to_ with buf := zero_words 0 (frac0 + 1) buf, intg := 1, frac := (max scale 0).toNat,
                  sign := false }, E_DEC_OK)

/-- `decimal_round(from, to, scale, mode)`, with `same` for `to == from`: the result in
    `to` and the error. -/
def decimal_round (from_ to_ : decimal_t) (same : Bool) (scale : Int)
    (mode : decimal_round_mode) : decimal_t × Nat :=
  let frac0 : Int := if scale > 0 then ROUND_UP_int scale else (scale + 1).tdiv DIG_PER_DEC1
  let frac1 : Int := ROUND_UP from_.frac
  let intg0 : Int := ROUND_UP from_.intg
  let len : Int := to_.len
  let rd := round_digit mode from_.sign
  let (frac0, scale, error) :=
    if frac0 + intg0 > len then (len - intg0, (len - intg0) * DIG_PER_DEC1, E_DEC_TRUNCATED)
    else (frac0, scale, E_DEC_OK)
  let to_ : decimal_t := if same then from_ else to_
  if scale + from_.intg < 0 then (decimal_make_zero to_, E_DEC_OK)
  else
    -- from here on the words are `to`'s; a copy takes `from`'s sign and whole-word `intg`
    let to_ : decimal_t := if same then to_ else
      { to_ with buf := copy_words (intg0 + max frac1 frac0) from_.buf to_.buf,
                 sign := from_.sign, intg := ((min intg0 len) * DIG_PER_DEC1).toNat }
    if frac0 > frac1 then
      ({ to_ with buf := zero_words (intg0 + frac1) (intg0 + frac0) to_.buf,
                  frac := scale.toNat }, error)
    else if scale ≥ from_.frac then ({ to_ with frac := scale.toNat }, error)
    else if scale = frac0 * DIG_PER_DEC1 then
      match decimal_round.at_boundary to_.buf mode rd intg0 frac0 frac1 with
      | none => (decimal_make_zero to_, E_DEC_OK)
      | some (buf, buf1) => decimal_round.finish to_ buf buf1 intg0 frac0 frac1 scale error
    else
      let r := decimal_round.in_word to_.buf mode rd intg0 frac0 scale
      decimal_round.finish to_ r.1 r.2 intg0 frac0 frac1 scale error

example : decimal_round ⟨3, 1, 9, false, [999, 900000000, 0, 0, 0, 0, 0, 0, 0]⟩
    ⟨3, 1, 9, false, [999, 900000000, 0, 0, 0, 0, 0, 0, 0]⟩ true 0 HALF_UP =
      (⟨4, 0, 9, false, [1000, 0, 0, 0, 0, 0, 0, 0, 0]⟩, E_DEC_OK) := by decide

/-! ## Where the results and the numbers part -/

/-- **A rounded zero is written past the buffer.** `10^-81` (no integer digit, nine
    fraction words) truncated to 80 digits is 0. The exit that writes it "with the proper
    scale" clears `frac0 + 1 = 10` words of a nine-word buffer and sets `intg = 1`, so the
    result says it has ten words: it is not well formed, and the word past the buffer is
    overwritten. -/
theorem decimal_round_zero_past_buffer :
    (⟨0, 81, 9, false, [0, 0, 0, 0, 0, 0, 0, 0, 1]⟩ : decimal_t).well_formed ∧
      decimal_round ⟨0, 81, 9, false, [0, 0, 0, 0, 0, 0, 0, 0, 1]⟩
          ⟨0, 0, 9, false, List.replicate 9 0⟩ false 80 TRUNCATE =
        (⟨1, 80, 9, false, List.replicate 9 0⟩, E_DEC_OK) ∧
      ¬ (⟨1, 80, 9, false, List.replicate 9 0⟩ : decimal_t).well_formed := by
  decide

/-- **Only the first dropped digit is looked at.** `HALF_EVEN` rounds `2.5000001` to `2`:
    the first dropped digit is 5 and the kept 2 is even, and the digits after the 5 are
    not read. `CEILING` rounds `1.001` to one digit as `1.0`: inside a word only the
    first dropped digit, 0, decides. -/
theorem decimal_round_first_digit_only :
    (⟨1, 7, 9, false, [2, 500000100, 0, 0, 0, 0, 0, 0, 0]⟩ : decimal_t).well_formed ∧
      (⟨1, 7, 9, false, [2, 500000100, 0, 0, 0, 0, 0, 0, 0]⟩ : decimal_t).value =
        25000001 / 10000000 ∧
      decimal_round ⟨1, 7, 9, false, [2, 500000100, 0, 0, 0, 0, 0, 0, 0]⟩
          ⟨1, 7, 9, false, [2, 500000100, 0, 0, 0, 0, 0, 0, 0]⟩ true 0 HALF_EVEN =
        (⟨1, 0, 9, false, [2, 0, 0, 0, 0, 0, 0, 0, 0]⟩, E_DEC_OK) ∧
      (⟨1, 0, 9, false, [2, 0, 0, 0, 0, 0, 0, 0, 0]⟩ : decimal_t).value = 2 ∧
      (⟨1, 3, 9, false, [1, 1000000, 0, 0, 0, 0, 0, 0, 0]⟩ : decimal_t).well_formed ∧
      (⟨1, 3, 9, false, [1, 1000000, 0, 0, 0, 0, 0, 0, 0]⟩ : decimal_t).value = 1001 / 1000 ∧
      decimal_round ⟨1, 3, 9, false, [1, 1000000, 0, 0, 0, 0, 0, 0, 0]⟩
          ⟨1, 3, 9, false, [1, 1000000, 0, 0, 0, 0, 0, 0, 0]⟩ true 1 CEILING =
        (⟨1, 1, 9, false, [1, 0, 0, 0, 0, 0, 0, 0, 0]⟩, E_DEC_OK) ∧
      (⟨1, 1, 9, false, [1, 0, 0, 0, 0, 0, 0, 0, 0]⟩ : decimal_t).value = 1 := by
  refine ⟨by decide, ?_, by decide, ?_, by decide, ?_, by decide, ?_⟩ <;>
    simp [decimal_t.value, ROUND_UP, DIG_PER_DEC1, DIG_BASE] <;> norm_num

/-! ## `decimal_shift` -/

/-- `count_trailing_zeroes(i, val)`: how many of `10^i`, `10^(i+1)`, …, `10^9` divide
    `val`, from `i` on; the unrolled `switch` falls through from `case i`. -/
def count_trailing_zeroes.go (val : Int) : Nat → Nat → Nat
  | 0, _ => 0
  | n + 1, k => if val.tmod (10 ^ k) ≠ 0 then 0 else go val n (k + 1) + 1

def count_trailing_zeroes (i : Nat) (val : Int) : Nat := count_trailing_zeroes.go val (10 - i) i

/-- `digits_bounds(from, &start, &end)`: the position of the first significant digit
    and the position after the last one, counting nine per word from the buffer's
    start; `(0, 0)` for zero. -/
def digits_bounds (from_ : decimal_t) : Int × Int :=
  let end_ : Int := ROUND_UP from_.intg + ROUND_UP from_.frac
  let buf_beg := skip_zeros_up from_.buf end_.toNat 0
  if buf_beg ≥ end_ then (0, 0)
  else
    -- the first word holds `(intg - 1) % 9 + 1` digits
    let (start, i) : Int × Nat :=
      if buf_beg = 0 ∧ from_.intg ≠ 0 then
        let i := (from_.intg - 1) % DIG_PER_DEC1 + 1
        (DIG_PER_DEC1 - i, i - 1)
      else (buf_beg * DIG_PER_DEC1, DIG_PER_DEC1 - 1)
    let start := start + count_leading_zeroes i (word from_.buf buf_beg)
    let buf_end := skip_zeros_down from_.buf (end_ - 1 - buf_beg).toNat (end_ - 1)
    -- the last word holds `(frac - 1) % 9 + 1` digits
    let (stop, i) : Int × Nat :=
      if buf_end = end_ - 1 ∧ from_.frac ≠ 0 then
        let i := (from_.frac - 1) % DIG_PER_DEC1 + 1
        (buf_end * DIG_PER_DEC1 + i, DIG_PER_DEC1 - i + 1)
      else ((buf_end + 1) * DIG_PER_DEC1, 1)
    (start, stop - count_trailing_zeroes i (word from_.buf buf_end))

/-- `for (; from < end; from++) *from = …` of `do_mini_left_shift`: each word takes its
    low `c_shift` digits up and the next word's top `shift` digits; the pointer after. -/
def mini_left_loop (shift : Nat) : Nat → List Int → Int → List Int × Int
  | 0, buf, i => (buf, i)
  | n + 1, buf, i =>
    mini_left_loop shift n (store_word buf i ((word buf i).tmod (powers10 (DIG_PER_DEC1 - shift)) *
      powers10 shift + (word buf (i + 1)).tdiv (powers10 (DIG_PER_DEC1 - shift)))) (i + 1)

/-- `do_mini_left_shift(dec, shift, beg, last)`: the digits from `beg` to `last` move
    `shift` places towards the buffer's start. -/
def do_mini_left_shift (buf : List Int) (shift : Nat) (beg last : Int) : List Int :=
  let from_ := ROUND_UP_int (beg + 1) - 1
  let end_ := ROUND_UP_int last - 1
  let c_shift := DIG_PER_DEC1 - shift
  let buf := if beg.tmod DIG_PER_DEC1 < shift then
      store_word buf (from_ - 1) ((word buf from_).tdiv (powers10 c_shift))
    else buf
  let r := mini_left_loop shift (end_ - from_).toNat buf from_
  store_word r.1 r.2 ((word r.1 r.2).tmod (powers10 c_shift) * powers10 shift)

/-- `for (; from > end; from--) *from = …` of `do_mini_right_shift`. -/
def mini_right_loop (shift : Nat) : Nat → List Int → Int → List Int × Int
  | 0, buf, i => (buf, i)
  | n + 1, buf, i =>
    mini_right_loop shift n (store_word buf i ((word buf i).tdiv (powers10 shift) +
      (word buf (i - 1)).tmod (powers10 shift) * powers10 (DIG_PER_DEC1 - shift))) (i - 1)

/-- `do_mini_right_shift(dec, shift, beg, last)`: the digits from `beg` to `last` move
    `shift` places towards the buffer's end. -/
def do_mini_right_shift (buf : List Int) (shift : Nat) (beg last : Int) : List Int :=
  let from_ := ROUND_UP_int last - 1
  let end_ := ROUND_UP_int (beg + 1) - 1
  let c_shift := DIG_PER_DEC1 - shift
  let buf := if DIG_PER_DEC1 - ((last - 1).tmod DIG_PER_DEC1 + 1) < shift then
      store_word buf (from_ + 1) ((word buf from_).tmod (powers10 shift) * powers10 c_shift)
    else buf
  let r := mini_right_loop shift (from_ - end_).toNat buf from_
  store_word r.1 r.2 ((word r.1 r.2).tdiv (powers10 shift))

/-- `*to = *(to + d)` over `n` rounds, the pointer moving by `step`: the word moves of
    `decimal_shift` (`step = 1`, `d = d_shift` to the left; `step = -1`, `d = -d_shift`
    to the right). -/
def move_words (step d : Int) : Nat → List Int → Int → List Int × Int
  | 0, buf, t => (buf, t)
  | n + 1, buf, t => move_words step d n (store_word buf t (word buf (t + d))) (t + step)

/-- `*to = 0` over `n` rounds, the pointer moving by `step`. -/
def fill_zeros (step : Int) : Nat → List Int → Int → List Int × Int
  | 0, buf, t => (buf, t)
  | n + 1, buf, t => fill_zeros step n (store_word buf t 0) (t + step)

/-- The whole-word move of `decimal_shift`: `new_front`, the place of the new point
    before the digits, is made less than a word. The buffer, and the shift in digits
    that `beg`, `end` and `new_point` take. -/
def decimal_shift.move (buf : List Int) (beg end_ new_front : Int) : List Int × Int :=
  if new_front > 0 then
    -- move left
    let d_shift := new_front.tdiv DIG_PER_DEC1
    let to_ := ROUND_UP_int (beg + 1) - 1 - d_shift
    let barier := ROUND_UP_int end_ - 1 - d_shift
    let r := move_words 1 d_shift (barier - to_ + 1).toNat buf to_
    let z := fill_zeros 1 (barier + d_shift - r.2 + 1).toNat r.1 r.2
    (z.1, -d_shift * DIG_PER_DEC1)
  else
    -- move right
    let d_shift := (1 - new_front).tdiv DIG_PER_DEC1
    let to_ := ROUND_UP_int end_ - 1 + d_shift
    let barier := ROUND_UP_int (beg + 1) - 1 + d_shift
    let r := move_words (-1) (-d_shift) (to_ - barier + 1).toNat buf to_
    let z := fill_zeros (-1) (r.2 - (barier - d_shift) + 1).toNat r.1 r.2
    (z.1, d_shift * DIG_PER_DEC1)

/-- The end of `decimal_shift`: the words between the digits and the new point are
    zeroed, and the number has `digits_int` and `digits_frac` digits. -/
def decimal_shift.fill_gap (dec : decimal_t) (beg end_ new_point digits_int digits_frac : Int)
    (err : Nat) : decimal_t × Nat :=
  let beg := ROUND_UP_int (beg + 1) - 1
  let end_ := ROUND_UP_int end_ - 1
  let new_point := if new_point ≠ 0 then ROUND_UP_int new_point - 1 else new_point
  let buf :=
    if new_point > end_ then (fill_zeros (-1) (new_point - end_).toNat dec.buf new_point).1
    else (fill_zeros 1 (beg - new_point).toNat dec.buf new_point).1
  ({ dec with buf := buf, intg := digits_int.toNat, frac := digits_frac.toNat }, err)

/-- The whole-word move and the gap, once the digits sit in their words as the new
    point needs: `new_front`, the new point's place before the digits, is brought under
    a word. -/
def decimal_shift.words (dec : decimal_t) (beg end_ new_point digits_int digits_frac : Int)
    (err : Nat) : decimal_t × Nat :=
  let new_front := new_point - digits_int
  if new_front ≥ DIG_PER_DEC1 ∨ new_front < 0 then
    let (buf, d_shift) := decimal_shift.move dec.buf beg end_ new_front
    decimal_shift.fill_gap { dec with buf := buf } (beg + d_shift) (end_ + d_shift)
      (new_point + d_shift) digits_int digits_frac err
  else decimal_shift.fill_gap dec beg end_ new_point digits_int digits_frac err

/-- The shift inside the words, towards the side with room, when `shift` is not a
    multiple of nine; then the whole-word move. -/
def decimal_shift.align (dec : decimal_t) (shift beg end_ new_point digits_int digits_frac : Int)
    (err : Nat) : decimal_t × Nat :=
  if shift.tmod DIG_PER_DEC1 ≠ 0 then
    let (l_mini_shift, r_mini_shift, do_left) :=
      if shift > 0 then
        let l := shift.tmod DIG_PER_DEC1
        (l, DIG_PER_DEC1 - l, decide (l ≤ beg))
      else
        let r := (-shift).tmod DIG_PER_DEC1
        (DIG_PER_DEC1 - r, r, !decide (dec.len * DIG_PER_DEC1 - end_ ≥ r))
    let (buf, mini_shift) :=
      if do_left then (do_mini_left_shift dec.buf l_mini_shift.toNat beg end_, -l_mini_shift)
      else (do_mini_right_shift dec.buf r_mini_shift.toNat beg end_, r_mini_shift)
    let dec := { dec with buf := buf }
    -- already shifted as it should be
    if shift + mini_shift = 0 ∧ new_point + mini_shift - digits_int < DIG_PER_DEC1 then
      ({ dec with intg := digits_int.toNat, frac := digits_frac.toNat }, err)
    else
      decimal_shift.words dec (beg + mini_shift) (end_ + mini_shift) (new_point + mini_shift)
        digits_int digits_frac err
  else decimal_shift.words dec beg end_ new_point digits_int digits_frac err

/-- `decimal_shift(dec, shift)`: `dec` multiplied by `10^shift` in place, and the error. -/
def decimal_shift (dec : decimal_t) (shift : Int) : decimal_t × Nat :=
  let point : Int := ROUND_UP dec.intg * DIG_PER_DEC1
  let new_point := point + shift
  if shift = 0 then (dec, E_DEC_OK)
  else
    let (beg, end_) := digits_bounds dec
    if beg = end_ then (decimal_make_zero dec, E_DEC_OK)
    else
      let digits_int := max (new_point - beg) 0
      let digits_frac := max (end_ - new_point) 0
      let new_frac_len := ROUND_UP_int digits_frac
      let new_len := ROUND_UP_int digits_int + new_frac_len
      if new_len > dec.len then
        let lack := new_len - dec.len
        -- lack more then we have in fraction
        if new_frac_len < lack then (dec, E_DEC_OVERFLOW)
        else
          -- cut off the fraction so that the number fits, rounding; the error of the
          -- rounding is not looked at
          let new_frac_len := new_frac_len - lack
          let diff := digits_frac - new_frac_len * DIG_PER_DEC1
          let dec := (decimal_round dec dec true (end_ - point - diff) HALF_UP).1
          let end_ := end_ - diff
          if end_ ≤ beg then (decimal_make_zero dec, E_DEC_TRUNCATED)
          else
            decimal_shift.align dec shift beg end_ new_point digits_int
              (new_frac_len * DIG_PER_DEC1) E_DEC_TRUNCATED
      else decimal_shift.align dec shift beg end_ new_point digits_int digits_frac E_DEC_OK

example : decimal_shift ⟨1, 1, 9, false, [1, 500000000, 0, 0, 0, 0, 0, 0, 0]⟩ 2 =
    (⟨3, 0, 9, false, [150, 0, 0, 0, 0, 0, 0, 0, 0]⟩, E_DEC_OK) := by decide

/-- **A carry of the rounding in `decimal_shift` is lost.** `6 · 10^-82` has 82 fraction
    digits, one more than nine words hold, so `decimal_shift` rounds the 6 away at
    `HALF_UP`, which makes the digit 1 one place up, `10^-81`, a well-formed nine-word
    number. But it then moves the end of the digits down by one place from where they
    ended before the rounding, finds no digit left, and returns 0. -/
theorem decimal_shift_loses_carry :
    (⟨1, 0, 9, false, [6, 0, 0, 0, 0, 0, 0, 0, 0]⟩ : decimal_t).well_formed ∧
      (⟨0, 81, 9, false, [0, 0, 0, 0, 0, 0, 0, 0, 1]⟩ : decimal_t).well_formed ∧
      (⟨0, 81, 9, false, [0, 0, 0, 0, 0, 0, 0, 0, 1]⟩ : decimal_t).value = 1 / 10 ^ 81 ∧
      decimal_shift ⟨1, 0, 9, false, [6, 0, 0, 0, 0, 0, 0, 0, 0]⟩ (-82) =
        (⟨1, 0, 9, false, [0, 0, 0, 0, 0, 0, 0, 0, 0]⟩, E_DEC_TRUNCATED) := by
  refine ⟨by decide, by decide, ?_, by decide⟩
  simp [decimal_t.value, ROUND_UP, DIG_PER_DEC1, DIG_BASE]
  norm_num

end AliSql
