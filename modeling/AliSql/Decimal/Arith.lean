import Mathlib
import AliSql.Decimal.Bin

/-!
# Arithmetic on DECIMAL values (`strings/decimal.c`)

`do_add` and `do_sub` work from the last word of the longer fraction up to the first word of
the longer integer part, a carry or a borrow between words; `do_sub` first compares the
magnitudes word by word (leading zero words of the integer parts and trailing zero words of
the fractions skipped), which is all `decimal_cmp` asks of it. `decimal_mul` multiplies word
by word into the zeroed result, capping the fraction digits at `NOT_FIXED_DEC`.
`do_div_mod` is long division in base `10^9` (Knuth's algorithm D, with only the divisor's
leading word normalised), giving the quotient for `decimal_div` and the remainder for
`decimal_mod`.

The buffers are lists of words as in `AliSql.Decimal.Bin`. A pointer into one is an index,
an `Int` where the source lets it step before the buffer; a word read before the buffer or
past its end reads as 0. Each `while` loop over pointers is a recursion over the number of
rounds the source's condition allows.

What the module shows about them, each at an input where the words are well formed:

* `decimal_add` asks for a word more than the sum needs whenever the two leading words add
  up to `DIG_MAX`, carry or not, and truncates a sum that fits (`decimal_add_truncates`);
* `decimal_cmp` orders a negative zero before a positive one (`decimal_cmp_negative_zero`);
* `decimal_mul` keeps the fraction digits of a zero product when the signs agree and drops
  them when they differ (`decimal_mul_zero_frac`), and caps the fraction at 31 digits
  without clearing the digits after it (`decimal_mul_hidden_digits`);
* `decimal_mod` of a zero dividend returns the zero of no fraction digits
  (`decimal_mod_zero_frac`).
-/

set_option autoImplicit false

namespace AliSql

/-! ## Words -/

def NOT_FIXED_DEC : Nat := 31
def E_DEC_DIV_ZERO : Nat := 4

/-- `frac_max[i]`: nine digits, the first `i + 1` of them nines. -/
def frac_max (i : Nat) : Int := DIG_BASE - 10 ^ (8 - i)

/-- The word at a pointer `i` into `buf`. -/
def word (buf : List Int) (i : Int) : Int := if i < 0 then 0 else buf.getD i.toNat 0

/-- `*p = x` at a pointer `i` into `buf`; nothing before the buffer. -/
def store_word (buf : List Int) (i : Int) (x : Int) : List Int :=
  if i < 0 then buf else buf.set i.toNat x

/-- `ROUND_UP(X)` of a C `int`, which may be negative: division truncates towards 0. -/
def ROUND_UP_int (x : Int) : Int := (x + DIG_PER_DEC1 - 1).tdiv DIG_PER_DEC1

/-- `ADD(to, from1, from2, carry)`: the word and the carry, for a carry of at most 1. -/
def ADD (from1 from2 carry : Int) : Int × Int :=
  let a := from1 + from2 + carry
  if a ≥ DIG_BASE then (a - DIG_BASE, 1) else (a, 0)

/-- `ADD2`: as `ADD`, for a carry of any size; a sum past `2 · DIG_BASE` carries twice. -/
def ADD2 (from1 from2 carry : Int) : Int × Int :=
  let a := from1 + from2 + carry
  let r : Int × Int := if a ≥ DIG_BASE then (a - DIG_BASE, 1) else (a, 0)
  if r.1 ≥ DIG_BASE then (r.1 - DIG_BASE, r.2 + 1) else r

/-- `SUB(to, from1, from2, carry)`: `from1 - from2 - carry` and the borrow. -/
def SUB (from1 from2 carry : Int) : Int × Int :=
  let a := from1 - from2 - carry
  if a < 0 then (a + DIG_BASE, 1) else (a, 0)

/-- `SUB2`: as `SUB`, for a borrow of any size. -/
def SUB2 (from1 from2 carry : Int) : Int × Int :=
  let a := from1 - from2 - carry
  let r : Int × Int := if a < 0 then (a + DIG_BASE, 1) else (a, 0)
  if r.1 < 0 then (r.1 + DIG_BASE, r.2 + 1) else r

/-- `max_decimal(precision, frac, to)`: the largest number of `precision` digits, `frac` of
    them after the point. -/
def max_decimal (precision frac : Nat) (to_ : decimal_t) : decimal_t :=
  let intpart := precision - frac
  let firstdigits := intpart % DIG_PER_DEC1
  let ints : List Int :=
    if intpart ≠ 0 then
      (if firstdigits ≠ 0 then [powers10 firstdigits - 1] else []) ++
        List.replicate (intpart / DIG_PER_DEC1) DIG_MAX
    else []
  let lastdigits := frac % DIG_PER_DEC1
  let fracs : List Int :=
    if frac ≠ 0 then
      List.replicate (frac / DIG_PER_DEC1) DIG_MAX ++
        (if lastdigits ≠ 0 then [frac_max (lastdigits - 1)] else [])
    else []
  let words := ints ++ fracs
  { to_ with sign := false, intg := intpart, frac := frac,
             buf := words ++ to_.buf.drop words.length }

/-! ## Moving down two buffers -/

/-- `while (buf1 > stop) *--buf0 = *--buf1`, over `n` rounds: the buffer written and the
    two pointers. -/
def copy_down (src : List Int) : Nat → List Int → Int → Int → List Int × Int × Int
  | 0, to_, buf0, buf1 => (to_, buf0, buf1)
  | n + 1, to_, buf0, buf1 =>
    copy_down src n (store_word to_ (buf0 - 1) (word src (buf1 - 1))) (buf0 - 1) (buf1 - 1)

/-- `*--buf0 = 0`, over `n` rounds. -/
def zero_down : Nat → List Int → Int → List Int × Int
  | 0, to_, buf0 => (to_, buf0)
  | n + 1, to_, buf0 => zero_down n (store_word to_ (buf0 - 1) 0) (buf0 - 1)

/-- `*buf0++ = 0` from the start of the buffer, `k` times. -/
def zero_up (k : Nat) (to_ : List Int) : List Int := List.replicate k 0 ++ to_.drop k

/-- `while (start1 < stop1) *buf0++ = *start1++`, over `n` rounds. -/
def copy_up (src : List Int) : Nat → List Int → Int → Int → List Int
  | 0, to_, _, _ => to_
  | n + 1, to_, buf0, start1 =>
    copy_up src n (store_word to_ buf0 (word src start1)) (buf0 + 1) (start1 + 1)

/-- `op(*--buf0, *--buf1, *--buf2, carry)` over `n` rounds, for `op` one of `ADD` and
    `SUB`: the buffer written, the three pointers and the carry. -/
def op_down (op : Int → Int → Int → Int × Int) (src1 src2 : List Int) :
    Nat → List Int → Int → Int → Int → Int → List Int × Int × Int × Int × Int
  | 0, to_, buf0, buf1, buf2, carry => (to_, buf0, buf1, buf2, carry)
  | n + 1, to_, buf0, buf1, buf2, carry =>
    let r := op (word src1 (buf1 - 1)) (word src2 (buf2 - 1)) carry
    op_down op src1 src2 n (store_word to_ (buf0 - 1) r.1) (buf0 - 1) (buf1 - 1) (buf2 - 1) r.2

/-- `op(*--buf0, *--buf1, carry)` over `n` rounds, for `op` one of `ADD(_, 0, _)`,
    `SUB(_, 0, _)` and `SUB(0, _, _)`; if `while_carry`, it also stops when `carry` is 0 (the
    third loop of `do_sub`). -/
def carry_down (op : Int → Int → Int × Int) (src : List Int) (while_carry : Bool) :
    Nat → List Int → Int → Int → Int → List Int × Int × Int × Int
  | 0, to_, buf0, buf1, carry => (to_, buf0, buf1, carry)
  | n + 1, to_, buf0, buf1, carry =>
    if while_carry ∧ carry = 0 then (to_, buf0, buf1, carry)
    else
      let r := op (word src (buf1 - 1)) carry
      carry_down op src while_carry n (store_word to_ (buf0 - 1) r.1) (buf0 - 1) (buf1 - 1) r.2

/-- `while (buf < stop && *buf == 0) buf++`, over `n` rounds. -/
def skip_zeros_up (buf : List Int) : Nat → Int → Int
  | 0, i => i
  | n + 1, i => if word buf i = 0 then skip_zeros_up buf n (i + 1) else i

/-- `while (start <= end && *end == 0) end--`, over `n` rounds. -/
def skip_zeros_down (buf : List Int) : Nat → Int → Int
  | 0, e => e
  | n + 1, e => if word buf e = 0 then skip_zeros_down buf n (e - 1) else e

/-- `while (buf1 <= end1 && buf2 <= end2 && *buf1 == *buf2) buf1++, buf2++`, over `n`
    rounds. -/
def skip_equal (b1 b2 : List Int) : Nat → Int → Int → Int × Int
  | 0, i, j => (i, j)
  | n + 1, i, j => if word b1 i = word b2 j then skip_equal b1 b2 n (i + 1) (j + 1) else (i, j)

/-! ## `do_add` -/

/-- `do_add(from1, from2, to)`: the sum of the magnitudes, with `from1`'s sign, and the
    error. -/
def do_add (from1 from2 to_ : decimal_t) : decimal_t × Nat :=
  let intg1 := ROUND_UP from1.intg
  let intg2 := ROUND_UP from2.intg
  let frac1 := ROUND_UP from1.frac
  let frac2 := ROUND_UP from2.frac
  let frac0 := max frac1 frac2
  let intg0 := max intg1 intg2
  -- is there a need for an extra word because of carry?
  let x := if intg1 > intg2 then word from1.buf 0
    else if intg2 > intg1 then word from2.buf 0
    else word from1.buf 0 + word from2.buf 0
  let extra := decide (x > DIG_MAX - 1)
  let intg0 := if extra then intg0 + 1 else intg0
  let tobuf := if extra then store_word to_.buf 0 0 else to_.buf
  let e := fix_intg_frac_error to_.len intg0 frac0
  let intg0 := e.1
  let frac0 := e.2.1
  let error := e.2.2
  if error = E_DEC_OVERFLOW then
    (max_decimal (to_.len * DIG_PER_DEC1) 0 { to_ with buf := tobuf }, error)
  else
    let tfrac := max from1.frac from2.frac
    let tfrac := if error ≠ 0 then min tfrac (frac0 * DIG_PER_DEC1) else tfrac
    let frac1 := if error ≠ 0 then min frac1 frac0 else frac1
    let frac2 := if error ≠ 0 then min frac2 frac0 else frac2
    let intg1 := if error ≠ 0 then min intg1 intg0 else intg1
    let intg2 := if error ≠ 0 then min intg2 intg0 else intg2
    -- part 1 - max(frac) ... min (frac): the longer fraction's own words
    let s1 := if frac1 > frac2 then from1.buf else from2.buf
    let s2 := if frac1 > frac2 then from2.buf else from1.buf
    let buf1 : Nat := if frac1 > frac2 then intg1 + frac1 else intg2 + frac2
    let stop : Nat := if frac1 > frac2 then intg1 + frac2 else intg2 + frac1
    let buf2 : Nat := if frac1 > frac2 then intg2 + frac2 else intg1 + frac1
    let stop2 : Nat := if frac1 > frac2 then intg1 - intg2 else intg2 - intg1
    let p1 := copy_down s1 (buf1 - stop) tobuf (intg0 + frac0) buf1
    -- part 2 - min(frac) ... min(intg)
    let p2 := op_down ADD s1 s2 ((p1.2.2 - stop2).toNat) p1.1 p1.2.1 p1.2.2 buf2 0
    -- part 3 - min(intg) ... max(intg): the longer integer part's own words
    let s3 := if intg1 > intg2 then from1.buf else from2.buf
    let p3 := carry_down (fun w c => ADD w 0 c) s3 false (if intg1 > intg2 then intg1 - intg2 else intg2 - intg1)
      p2.1 p2.2.1 (if intg1 > intg2 then intg1 - intg2 else intg2 - intg1) p2.2.2.2.2
    let tobuf := if p3.2.2.2 ≠ 0 then store_word p3.1 (p3.2.1 - 1) 1 else p3.1
    ({ to_ with buf := tobuf, sign := from1.sign, frac := tfrac,
                intg := intg0 * DIG_PER_DEC1 }, error)

example : do_add ⟨1, 1, 3, false, [1, 500000000, 0]⟩ ⟨1, 2, 3, false, [2, 750000000, 0]⟩
    ⟨0, 0, 3, false, [0, 0, 0]⟩ = (⟨9, 2, 3, false, [4, 250000000, 0]⟩, E_DEC_OK) := by decide

/-! ## `do_sub` and `decimal_cmp` -/

/-- What the first part of `do_sub` finds: the magnitudes are equal, or they differ and
    `carry` says whether `from2`'s is the larger; with the pointers to the first integer
    words that are not zero, and the integer and fraction word counts from there. -/
inductive Sub_start
  | equal
  | differ (carry : Bool) (start1 start2 intg1 intg2 frac1 frac2 : Int)

/-- The first part of `do_sub`, which alone answers `decimal_cmp`: skip the zero words at
    the head of the integer parts; with as many integer words left on both sides, skip the
    zero words at the end of the fractions and compare word by word. -/
def do_sub.compare (from1 from2 : decimal_t) : Sub_start :=
  let intg1 : Int := ROUND_UP from1.intg
  let intg2 : Int := ROUND_UP from2.intg
  let frac1 : Int := ROUND_UP from1.frac
  let frac2 : Int := ROUND_UP from2.frac
  let stop1 := intg1
  let stop2 := intg2
  let buf1 : Int := if word from1.buf 0 = 0 then skip_zeros_up from1.buf intg1.toNat 0 else 0
  let intg1 := stop1 - buf1
  let buf2 : Int := if word from2.buf 0 = 0 then skip_zeros_up from2.buf intg2.toNat 0 else 0
  let intg2 := stop2 - buf2
  if intg2 > intg1 then .differ true buf1 buf2 intg1 intg2 frac1 frac2
  else if intg2 = intg1 then
    let end1 := skip_zeros_down from1.buf (stop1 + frac1 - buf1).toNat (stop1 + frac1 - 1)
    let end2 := skip_zeros_down from2.buf (stop2 + frac2 - buf2).toNat (stop2 + frac2 - 1)
    let frac1 := end1 - stop1 + 1
    let frac2 := end2 - stop2 + 1
    let p := skip_equal from1.buf from2.buf (min (end1 - buf1 + 1) (end2 - buf2 + 1)).toNat
      buf1 buf2
    if p.1 ≤ end1 then
      .differ (decide (p.2 ≤ end2 ∧ word from2.buf p.2 > word from1.buf p.1)) buf1 buf2
        intg1 intg2 frac1 frac2
    else if p.2 ≤ end2 then .differ true buf1 buf2 intg1 intg2 frac1 frac2
    else .equal
  else .differ false buf1 buf2 intg1 intg2 frac1 frac2

/-- `do_sub(from1, from2, to)` for a `to` given: the difference of the magnitudes, the
    larger minus the smaller, with the sign that makes it `from1 - from2` when `from1`
    carries the sign, and the error. -/
def do_sub (from1 from2 to_ : decimal_t) : decimal_t × Nat :=
  let frac0 : Nat := max (ROUND_UP from1.frac) (ROUND_UP from2.frac)
  match do_sub.compare from1 from2 with
  | .equal => (decimal_make_zero to_, E_DEC_OK)
  | .differ carry start1 start2 intg1 intg2 frac1 frac2 =>
    -- ensure that always from1 > from2 (and intg1 >= intg2)
    let sign := if carry then !from1.sign else from1.sign
    let s1 := if carry then from2.buf else from1.buf
    let s2 := if carry then from1.buf else from2.buf
    let (start1, start2) := if carry then (start2, start1) else (start1, start2)
    let (intg1, intg2) := if carry then (intg2, intg1) else (intg1, intg2)
    let (frac1, frac2) := if carry then (frac2, frac1) else (frac1, frac2)
    let e := fix_intg_frac_error to_.len intg1.toNat frac0
    let intg1 : Int := e.1
    let frac0 : Int := e.2.1
    let error := e.2.2
    let tfrac := max from1.frac from2.frac
    let tfrac := if error ≠ 0 then min tfrac (e.2.1 * DIG_PER_DEC1) else tfrac
    let frac1 := if error ≠ 0 then min frac1 frac0 else frac1
    let frac2 := if error ≠ 0 then min frac2 frac0 else frac2
    let intg2 := if error ≠ 0 then min intg2 intg1 else intg2
    let buf0 := intg1 + frac0
    -- part 1 - max(frac) ... min (frac)
    let p1 : List Int × Int × Int × Int × Int :=
      if frac1 > frac2 then
        let z := zero_down (frac0 - frac1).toNat to_.buf buf0
        let c := copy_down s1 (frac1 - frac2).toNat z.1 z.2 (start1 + intg1 + frac1)
        (c.1, c.2.1, c.2.2, start2 + intg2 + frac2, 0)
      else
        let z := zero_down (frac0 - frac2).toNat to_.buf buf0
        let c := carry_down (fun w c => SUB 0 w c) s2 false (frac2 - frac1).toNat z.1 z.2
          (start2 + intg2 + frac2) 0
        (c.1, c.2.1, start1 + intg1 + frac1, c.2.2.1, c.2.2.2)
    -- part 2 - min(frac) ... intg2
    let p2 := op_down SUB s1 s2 (p1.2.2.2.1 - start2).toNat p1.1 p1.2.1 p1.2.2.1 p1.2.2.2.1
      p1.2.2.2.2
    -- part 3 - intg2 ... intg1
    let p3 := carry_down (fun w c => SUB w 0 c) s1 true (p2.2.2.1 - start1).toNat p2.1 p2.2.1
      p2.2.2.1 p2.2.2.2.2
    let p4 := copy_down s1 (p3.2.2.1 - start1).toNat p3.1 p3.2.1 p3.2.2.1
    let p5 := zero_down p4.2.1.toNat p4.1 p4.2.1
    ({ to_ with buf := p5.1, sign := sign, frac := tfrac, intg := e.1 * DIG_PER_DEC1 }, error)

def decimal_add (from1 from2 to_ : decimal_t) : decimal_t × Nat :=
  if from1.sign = from2.sign then do_add from1 from2 to_ else do_sub from1 from2 to_

def decimal_sub (from1 from2 to_ : decimal_t) : decimal_t × Nat :=
  if from1.sign = from2.sign then do_sub from1 from2 to_ else do_add from1 from2 to_

/-- `decimal_cmp(from1, from2)`: with the signs equal, what `do_sub(from1, from2, 0)`
    returns from its first part. -/
def decimal_cmp (from1 from2 : decimal_t) : Int :=
  if from1.sign = from2.sign then
    match do_sub.compare from1 from2 with
    | .equal => 0
    | .differ carry .. => if carry = from1.sign then 1 else -1
  else if from1.sign > from2.sign then -1 else 1

example : decimal_sub ⟨1, 1, 3, false, [1, 500000000, 0]⟩ ⟨1, 2, 3, false, [2, 750000000, 0]⟩
    ⟨0, 0, 3, false, [0, 0, 0]⟩ = (⟨9, 2, 3, true, [1, 250000000, 0]⟩, E_DEC_OK) := by decide

example : decimal_cmp ⟨10, 0, 3, false, [0, 5, 0]⟩ ⟨1, 3, 3, false, [5, 0, 0]⟩ = 0 := by decide

/-! ## `decimal_mul` -/

/-- The inner loop of `decimal_mul`: one word of `from1` times the words of `from2` from
    `buf2` down, added into `to` from `buf0` down. The buffer, the pointer under the last
    word written and the carry. -/
def decimal_mul.row (x : Int) (src2 : List Int) :
    Nat → List Int → Int → Int → Int → List Int × Int × Int
  | 0, to_, buf0, _, carry => (to_, buf0, carry)
  | n + 1, to_, buf0, buf2, carry =>
    let p := x * word src2 buf2
    let hi := p.tdiv DIG_BASE
    let lo := p - hi * DIG_BASE
    let r := ADD2 (word to_ buf0) lo carry
    decimal_mul.row x src2 n (store_word to_ buf0 r.1) (buf0 - 1) (buf2 - 1) (r.2 + hi)

/-- `for (buf0--; carry; buf0--) ADD(*buf0, *buf0, 0, carry)`, over `n` rounds: the carry
    runs up the result; `none` where it would pass the buffer's first word. -/
def decimal_mul.carry_up : Nat → List Int → Int → Int → Option (List Int)
  | 0, to_, _, _ => some to_
  | n + 1, to_, buf0, carry =>
    if carry = 0 then some to_
    else if buf0 < 0 then none
    else
      let r := ADD (word to_ buf0) 0 carry
      decimal_mul.carry_up n (store_word to_ buf0 r.1) (buf0 - 1) r.2

/-- The outer loop of `decimal_mul`, over the words of `from1` from `buf1` down, the result
    row by row from `start0` down; `none` at `return E_DEC_OVERFLOW`, with the buffer then. -/
def decimal_mul.rows (src1 src2 : List Int) (start2 : Int) (n2 : Nat) :
    Nat → List Int → Int → Int → List Int × Bool
  | 0, to_, _, _ => (to_, true)
  | n + 1, to_, buf1, start0 =>
    let r := decimal_mul.row (word src1 buf1) src2 n2 to_ start0 start2 0
    let to_ := r.1
    let buf0 := r.2.1
    let carry := r.2.2
    if carry ≠ 0 ∧ buf0 < 0 then (to_, false)
    else
      let a : List Int × Int × Int :=
        if carry ≠ 0 then
          let s := ADD2 (word to_ buf0) 0 carry
          (store_word to_ buf0 s.1, buf0, s.2)
        else (to_, buf0, carry)
      -- the carry's rounds are bounded by the words above `buf0`
      match decimal_mul.carry_up (a.2.1 + 1).toNat a.1 (a.2.1 - 1) a.2.2 with
      | none => (a.1, false)
      | some to_ => decimal_mul.rows src1 src2 start2 n2 n to_ (buf1 - 1) (start0 - 1)

/-- `decimal_mul(from1, from2, to)`: the product and the error. -/
def decimal_mul (from1 from2 to_ : decimal_t) : decimal_t × Nat :=
  let intg1 : Int := ROUND_UP from1.intg
  let intg2 : Int := ROUND_UP from2.intg
  let frac1 : Int := ROUND_UP from1.frac
  let frac2 : Int := ROUND_UP from2.frac
  let intg0 := ROUND_UP (from1.intg + from2.intg)
  let frac0 := ROUND_UP from1.frac + ROUND_UP from2.frac
  let buf1 := intg1
  let buf2 := intg2
  -- save 'ideal' values
  let iii : Int := intg0
  let jjj : Int := frac0
  let e := fix_intg_frac_error to_.len intg0 frac0
  let intg0 : Int := e.1
  let frac0 : Int := e.2.1
  let error := e.2.2
  let sign := from1.sign != from2.sign
  let tfrac := min (from1.frac + from2.frac) NOT_FIXED_DEC
  let tintg := e.1 * DIG_PER_DEC1
  let tfrac := if error ≠ 0 then min tfrac (e.2.1 * DIG_PER_DEC1) else tfrac
  let tintg := if error ≠ 0 then min tintg (e.1 * DIG_PER_DEC1) else tintg
  -- a bounded integer part takes words off both integer parts, a bounded fraction off both
  -- fractions
  let (intg1, intg2, frac1, frac2) :=
    if error ≠ 0 then
      if iii > intg0 then
        let iii := iii - intg0
        let jjj := iii / 2
        (intg1 - jjj, intg2 - (iii - jjj), (0 : Int), (0 : Int))
      else
        let jjj := jjj - frac0
        let iii := jjj / 2
        if frac1 ≤ frac2 then (intg1, intg2, frac1 - iii, frac2 - (jjj - iii))
        else (intg1, intg2, frac1 - (jjj - iii), frac2 - iii)
    else (intg1, intg2, frac1, frac2)
  let start0 := intg0 + frac0 - 1
  let start2 := buf2 + frac2 - 1
  let stop1 := buf1 - intg1
  let stop2 := buf2 - intg2
  let zeroed := List.replicate (intg0 + frac0).toNat 0 ++ to_.buf.drop (intg0 + frac0).toNat
  let r := decimal_mul.rows from1.buf from2.buf start2 (start2 - stop2 + 1).toNat
    (buf1 + frac1 - 1 - stop1 + 1).toNat zeroed (buf1 + frac1 - 1) start0
  let to_ : decimal_t := { to_ with buf := r.1, sign := sign, frac := tfrac, intg := tintg }
  if !r.2 then (to_, E_DEC_OVERFLOW)
  else
    -- Now we have to check for -0.000 case; the loop asserts a word to look at, and with
    -- none it stops at the first word that is not 0, past the product
    let to_ := if to_.sign ∧ 0 < intg0 + frac0 ∧ (to_.buf.take (intg0 + frac0).toNat).all (· = 0)
      then decimal_make_zero to_ else to_
    -- drop the zero words at the head of the integer part
    let d_to_move := intg0 + ROUND_UP to_.frac
    let k := Nat.min ((to_.buf.takeWhile (· = 0)).length) ((to_.intg - 1) / DIG_PER_DEC1)
    let to_ : decimal_t :=
      if 0 < k then
        { to_ with intg := to_.intg - k * DIG_PER_DEC1,
                   buf := (to_.buf.drop k).take (d_to_move - k).toNat ++
                     to_.buf.drop (d_to_move - k).toNat }
      else to_
    (to_, error)

example : decimal_mul ⟨1, 1, 4, false, [1, 500000000, 0, 0]⟩ ⟨1, 2, 4, true, [2, 750000000, 0, 0]⟩
    ⟨0, 0, 4, false, [7, 7, 7, 7]⟩ = (⟨9, 3, 4, true, [4, 125000000, 0, 7]⟩, E_DEC_OK) := by decide

/-! ## `do_div_mod` -/

/-- `while (prec > 0 && *buf == 0) { prec -= i; i = DIG_PER_DEC1; buf++; }`, over `n`
    rounds: the digits left and the pointer. -/
def do_div_mod.skip (b : List Int) : Nat → Int → Int → Int → Int × Int
  | 0, prec, _, buf => (prec, buf)
  | n + 1, prec, i, buf =>
    if prec > 0 ∧ word b buf = 0 then do_div_mod.skip b n (prec - i) DIG_PER_DEC1 (buf + 1)
    else (prec, buf)

/-- D3: the guess at the next quotient word from the remainder's two leading words `x` and
    `y`, cut to `DIG_BASE - 1`, then lowered at most twice by the divisor's second word. -/
def do_div_mod.guess (norm_factor norm2 len2 s0 s1 x y : Int) : Int :=
  let guess := (norm_factor * x + (norm_factor * y).tdiv DIG_BASE).tdiv norm2
  let guess := if guess ≥ DIG_BASE then DIG_BASE - 1 else guess
  if len2 > 0 then
    let guess := if s1 * guess > (x - guess * s0) * DIG_BASE + y then guess - 1 else guess
    if s1 * guess > (x - guess * s0) * DIG_BASE + y then guess - 1 else guess
  else guess

/-- D4: `guess` times the divisor's words, from `buf2` down, subtracted from the remainder's
    words from `buf1` down; the remainder and the borrow out of its top word. -/
def do_div_mod.mul_sub (guess : Int) (src2 : List Int) :
    Nat → List Int → Int → Int → Int → List Int × Int
  | 0, tmp1, _, _, carry => (tmp1, carry)
  | n + 1, tmp1, buf1, buf2, carry =>
    let x := guess * word src2 (buf2 - 1)
    let hi := x.tdiv DIG_BASE
    let lo := x - hi * DIG_BASE
    let r := SUB2 (word tmp1 buf1) lo carry
    do_div_mod.mul_sub guess src2 n (store_word tmp1 buf1 r.1) (buf1 - 1) (buf2 - 1) (r.2 + hi)

/-- D6: the divisor's words added back to the remainder's, the last carry dropped. -/
def do_div_mod.add_back (src2 : List Int) : Nat → List Int → Int → Int → Int → List Int
  | 0, tmp1, _, _, _ => tmp1
  | n + 1, tmp1, buf1, buf2, carry =>
    let r := ADD (word tmp1 buf1) (word src2 (buf2 - 1)) carry
    do_div_mod.add_back src2 n (store_word tmp1 buf1 r.1) (buf1 - 1) (buf2 - 1) r.2

/-- The main loop of `do_div_mod`, one quotient word a round: the remainder, the quotient's
    buffer, and where the remainder's leading word and the word above it stand. -/
def do_div_mod.loop (src2 : List Int) (start2 stop2 len2 norm_factor norm2 : Int)
    (div_mod : Bool) : Nat → List Int → List Int → Int → Int → Int →
      List Int × List Int × Int × Int
  | 0, tmp1, to_, _, start1, dcarry => (tmp1, to_, start1, dcarry)
  | n + 1, tmp1, to_, buf0, start1, dcarry =>
    let step : List Int × Int :=
      -- short-circuit, if possible
      if dcarry = 0 ∧ word tmp1 start1 < word src2 start2 then (tmp1, 0)
      else
        let x := word tmp1 start1 + dcarry * DIG_BASE
        let y := word tmp1 (start1 + 1)
        let guess := do_div_mod.guess norm_factor norm2 len2 (word src2 start2)
          (word src2 (start2 + 1)) x y
        let r := do_div_mod.mul_sub guess src2 (stop2 - start2).toNat tmp1 (start1 + len2) stop2 0
        -- D5: a borrow past the remainder's top word means the guess was one too large
        if dcarry < r.2 then
          (do_div_mod.add_back src2 (stop2 - start2).toNat r.1 (start1 + len2) stop2 0, guess - 1)
        else (r.1, guess)
    let to_ := if div_mod then store_word to_ buf0 step.2 else to_
    do_div_mod.loop src2 start2 stop2 len2 norm_factor norm2 div_mod n step.1 to_ (buf0 + 1)
      (start1 + 1) (word step.1 start1)

/-- The end of `do_div_mod` (`done:`): the leading zero words of the integer part dropped,
    the words after them moved to the front of the buffer. -/
def do_div_mod.done (to_ : decimal_t) (error : Nat) : decimal_t × Nat :=
  let r := remove_leading_zeroes to_
  let offset := to_.buf.length - r.1.length
  let n := ROUND_UP r.2 + ROUND_UP to_.frac
  let buf := if offset ≠ 0 then
      (List.range n).map (fun k => word to_.buf (offset + k)) ++ to_.buf.drop n
    else to_.buf
  ({ to_ with intg := r.2, buf := buf }, error)

/-- The remainder part of `do_div_mod`: the words the main loop left in `tmp1` from
    `start1` on, cut to `to`'s length. -/
def do_div_mod.remainder (from2 to_ : decimal_t) (tmp1 : List Int) (prec1 frac1 start1 dcarry : Int) :
    decimal_t × Nat :=
  let (tmp1, start1) := if dcarry ≠ 0 then (store_word tmp1 (start1 - 1) dcarry, start1 - 1)
    else (tmp1, start1)
  let len : Int := to_.len
  let intg0 := ROUND_UP_int (prec1 - frac1) - start1
  let frac0 : Int := ROUND_UP to_.frac
  if frac0 = 0 ∧ intg0 = 0 then do_div_mod.done (decimal_make_zero to_) E_DEC_OK
  else
    -- the words to copy, where they go, and the parts' word counts after them
    let place : Option (decimal_t × Int × Int × Int × Int) :=
      if intg0 ≤ 0 then
        if -intg0 ≥ len then none
        else
          -- `while (intg0++ < 0) *buf0++ = 0` leaves `intg0` at 1
          some ({ to_ with intg := 0, buf := zero_up (-intg0).toNat to_.buf },
            -intg0, start1 + frac0 + intg0, 1, frac0 + intg0)
      else if intg0 > len then none
      else
        some ({ to_ with intg := min (intg0.toNat * DIG_PER_DEC1) from2.intg }, 0,
          start1 + frac0 + intg0, intg0, frac0)
    match place with
    | none =>
      if intg0 ≤ 0 then do_div_mod.done (decimal_make_zero to_) E_DEC_TRUNCATED
      else do_div_mod.done to_ E_DEC_OVERFLOW
    | some (to_, buf0, stop1, intg0, frac0) =>
      let cut := intg0 + frac0 > len
      let stop1 := if cut then stop1 - (frac0 + intg0 - len) else stop1
      let to_ := if cut then { to_ with frac := (len - intg0).toNat * DIG_PER_DEC1 } else to_
      let c := copy_up tmp1 (stop1 - start1).toNat to_.buf buf0 start1
      do_div_mod.done { to_ with buf := c } (if cut then E_DEC_TRUNCATED else E_DEC_OK)

/-- `do_div_mod(from1, from2, to, mod, scale_incr)`: the quotient (`mod` false) or the
    remainder (`mod` true) in `to`, and the error. -/
def do_div_mod (from1 from2 to_ : decimal_t) (mod : Bool) (scale_incr : Int) : decimal_t × Nat :=
  let frac1 : Int := ROUND_UP from1.frac * DIG_PER_DEC1
  let prec1 : Int := from1.intg + frac1
  let frac2 : Int := ROUND_UP from2.frac * DIG_PER_DEC1
  let prec2 : Int := from2.intg + frac2
  let div_mod := !mod
  -- removing all the leading zeroes
  let s2 := do_div_mod.skip from2.buf prec2.toNat prec2 ((prec2 - 1).tmod DIG_PER_DEC1 + 1) 0
  let buf2 := s2.2
  if s2.1 ≤ 0 then (to_, E_DEC_DIV_ZERO)
  else
  let prec2 := s2.1 - count_leading_zeroes ((s2.1 - 1) % DIG_PER_DEC1).toNat (word from2.buf buf2)
  let s1 := do_div_mod.skip from1.buf prec1.toNat prec1 ((prec1 - 1).tmod DIG_PER_DEC1 + 1) 0
  let buf1 := s1.2
  if s1.1 ≤ 0 then (decimal_make_zero to_, E_DEC_OK)
  else
  let prec1 := s1.1 - count_leading_zeroes ((s1.1 - 1) % DIG_PER_DEC1).toNat (word from1.buf buf1)
  -- let's fix scale_incr, taking into account frac1,frac2 increase
  let scale_incr := scale_incr - (frac1 - from1.frac + frac2 - from2.frac)
  let scale_incr := if scale_incr < 0 then 0 else scale_incr
  let dintg := (prec1 - frac1) - (prec2 - frac2) +
    (if word from1.buf buf1 ≥ word from2.buf buf2 then 1 else 0)
  let intg0 : Int := if dintg < 0 then 0 else ROUND_UP_int dintg
  let dintg := if dintg < 0 then dintg.tdiv DIG_PER_DEC1 else dintg
  -- the remainder takes the sign and the fraction of `from1` and `from2`; the quotient
  -- `ROUND_UP(frac1 + frac2 + scale_incr)` fraction words
  let shape : decimal_t × Int × Int × Nat :=
    if mod then ({ to_ with sign := from1.sign, frac := max from1.frac from2.frac }, intg0, 0,
      E_DEC_OK)
    else
      let e := fix_intg_frac_error to_.len intg0.toNat
        (ROUND_UP_int (frac1 + frac2 + scale_incr)).toNat
      ({ to_ with sign := from1.sign != from2.sign, intg := e.1 * DIG_PER_DEC1,
                  frac := e.2.1 * DIG_PER_DEC1 }, e.1, e.2.1, e.2.2)
  let to_ := shape.1
  let error := shape.2.2.2
  let stop0 := shape.2.1 + shape.2.2.1
  let buf0 : Int := if div_mod then min (-dintg).toNat to_.len else 0
  let to_ := { to_ with buf := zero_up buf0.toNat to_.buf }
  let i := ROUND_UP_int prec1
  let len1 := max (i + ROUND_UP_int (2 * frac2 + scale_incr + 1) + 1) 3
  let tmp1 := (List.range i.toNat).map (fun k => word from1.buf (buf1 + k)) ++
    List.replicate (len1 - i).toNat 0
  let start2 := buf2
  -- removing end zeroes
  let stop2 := skip_zeros_down from2.buf (ROUND_UP_int prec2).toNat (buf2 + ROUND_UP_int prec2 - 1)
  let len2 := stop2 - start2
  let stop2 := stop2 + 1
  let norm_factor := DIG_BASE.tdiv (word from2.buf start2 + 1)
  let norm2 := norm_factor * word from2.buf start2 +
    (if len2 > 0 then (norm_factor * word from2.buf (start2 + 1)).tdiv DIG_BASE else 0)
  let start1 : Int := if word tmp1 0 < word from2.buf start2 then 1 else 0
  let dcarry := if word tmp1 0 < word from2.buf start2 then word tmp1 0 else 0
  let r := do_div_mod.loop from2.buf start2 stop2 len2 norm_factor norm2 div_mod
    (stop0 - buf0).toNat tmp1 to_.buf buf0 start1 dcarry
  if mod then do_div_mod.remainder from2 to_ r.1 prec1 frac1 r.2.2.1 r.2.2.2
  else do_div_mod.done { to_ with buf := r.2.1 } error

def decimal_div (from1 from2 to_ : decimal_t) (scale_incr : Int) : decimal_t × Nat :=
  do_div_mod from1 from2 to_ false scale_incr

def decimal_mod (from1 from2 to_ : decimal_t) : decimal_t × Nat :=
  do_div_mod from1 from2 to_ true 0

example : decimal_div ⟨1, 0, 3, false, [7, 0, 0]⟩ ⟨1, 0, 3, false, [2, 0, 0]⟩
    ⟨0, 0, 3, false, [0, 0, 0]⟩ 4 = (⟨1, 9, 3, false, [3, 500000000, 0]⟩, E_DEC_OK) := by decide

example : decimal_mod ⟨1, 0, 3, false, [7, 0, 0]⟩ ⟨1, 0, 3, false, [2, 0, 0]⟩
    ⟨0, 0, 3, false, [0, 0, 0]⟩ = (⟨1, 0, 3, false, [1, 0, 0]⟩, E_DEC_OK) := by decide

/-! ## Where the results and the numbers part -/

/-- **A sum that fits is truncated.** `0.999999998 + 0.000000001` is `0.999999999`, one
    fraction word and no integer word. The two leading words add up to `DIG_MAX`, so `do_add`
    asks for an integer word as well; in a `to` of one word the fraction is cut and the sum
    is 0, with `E_DEC_TRUNCATED`. -/
theorem decimal_add_truncates :
    (⟨0, 9, 9, false, 999999998 :: List.replicate 8 0⟩ : decimal_t).well_formed ∧
      (⟨0, 9, 9, false, 1 :: List.replicate 8 0⟩ : decimal_t).well_formed ∧
      (⟨0, 9, 1, false, [999999999]⟩ : decimal_t).well_formed ∧
      (⟨0, 9, 9, false, 999999998 :: List.replicate 8 0⟩ : decimal_t).value +
          (⟨0, 9, 9, false, 1 :: List.replicate 8 0⟩ : decimal_t).value =
        (⟨0, 9, 1, false, [999999999]⟩ : decimal_t).value ∧
      decimal_add ⟨0, 9, 9, false, 999999998 :: List.replicate 8 0⟩
          ⟨0, 9, 9, false, 1 :: List.replicate 8 0⟩ ⟨0, 0, 1, false, [0]⟩ =
        (⟨9, 0, 1, false, [0]⟩, E_DEC_TRUNCATED) := by
  refine ⟨by decide, by decide, by decide, ?_, by decide⟩
  simp [decimal_t.value, ROUND_UP, DIG_PER_DEC1, DIG_BASE]
  norm_num

/-- **A negative zero orders before a positive one.** With the sign flags different,
    `decimal_cmp` answers from the flags alone. -/
theorem decimal_cmp_negative_zero :
    (⟨1, 0, 1, true, [0]⟩ : decimal_t).well_formed ∧
      (⟨1, 0, 1, false, [0]⟩ : decimal_t).well_formed ∧
      (⟨1, 0, 1, true, [0]⟩ : decimal_t).value = (⟨1, 0, 1, false, [0]⟩ : decimal_t).value ∧
      decimal_cmp ⟨1, 0, 1, true, [0]⟩ ⟨1, 0, 1, false, [0]⟩ = -1 := by
  refine ⟨by decide, by decide, ?_, by decide⟩
  simp [decimal_t.value, ROUND_UP, DIG_PER_DEC1]

/-- **The fraction of a zero product depends on the signs.** `-1.5 · 0.0` is made the zero
    of no fraction digits by the check for `-0.000`; `1.5 · 0.0` keeps `1 + 1` of them. -/
theorem decimal_mul_zero_frac :
    (⟨1, 1, 2, true, [1, 500000000]⟩ : decimal_t).well_formed ∧
      (⟨1, 1, 2, false, [0, 0]⟩ : decimal_t).well_formed ∧
      decimal_mul ⟨1, 1, 2, true, [1, 500000000]⟩ ⟨1, 1, 2, false, [0, 0]⟩
          ⟨0, 0, 4, false, [0, 0, 0, 0]⟩ = (⟨1, 0, 4, false, [0, 0, 0, 0]⟩, E_DEC_OK) ∧
      decimal_mul ⟨1, 1, 2, false, [1, 500000000]⟩ ⟨1, 1, 2, false, [0, 0]⟩
          ⟨0, 0, 4, false, [0, 0, 0, 0]⟩ = (⟨9, 2, 4, false, [0, 0, 0, 0]⟩, E_DEC_OK) := by
  decide

/-- **A capped fraction keeps its digits.** `10^-16 · 10^-16` has 32 fraction digits in four
    words; `decimal_mul` sets `frac` to `NOT_FIXED_DEC = 31` and leaves the 32nd digit, 1, in
    the last word, so the product is not well formed. -/
theorem decimal_mul_hidden_digits :
    (⟨0, 16, 9, false, [0, 100, 0, 0, 0, 0, 0, 0, 0]⟩ : decimal_t).well_formed ∧
      decimal_mul ⟨0, 16, 9, false, [0, 100, 0, 0, 0, 0, 0, 0, 0]⟩
          ⟨0, 16, 9, false, [0, 100, 0, 0, 0, 0, 0, 0, 0]⟩ ⟨0, 0, 9, false, List.replicate 9 0⟩ =
        (⟨0, 31, 9, false, [0, 0, 0, 10000, 0, 0, 0, 0, 0]⟩, E_DEC_OK) ∧
      (⟨0, 31, 9, false, [0, 0, 0, 10000, 0, 0, 0, 0, 0]⟩ : decimal_t).well_formed = false := by
  decide

/-- **A zero dividend has no fraction.** `0.00 % 1` is returned as the zero of no fraction
    digits, not of `max(2, 0)`. -/
theorem decimal_mod_zero_frac :
    (⟨1, 2, 9, false, List.replicate 9 0⟩ : decimal_t).well_formed ∧
      decimal_mod ⟨1, 2, 9, false, List.replicate 9 0⟩ ⟨1, 0, 9, false, 1 :: List.replicate 8 0⟩
          ⟨0, 0, 9, false, List.replicate 9 0⟩ =
        (⟨1, 0, 9, false, List.replicate 9 0⟩, E_DEC_OK) := by
  decide

end AliSql
