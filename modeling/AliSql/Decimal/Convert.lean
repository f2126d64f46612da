import Mathlib
import AliSql.Decimal.Round
import AliSql.Libc.Basic

/-!
# DECIMAL values from and to integers (`strings/decimal.c`)

`ull2dec` writes a `ulonglong` as whole words of nine digits, as many as it needs;
`longlong2decimal` and `ulonglong2decimal` set the sign and call it, the first with the
negation of a negative number taken as a `ulonglong`, which is how `LONGLONG_MIN`
becomes `2^63`. `decimal2longlong` reads the integer words into a `longlong` as the
*negated* magnitude, since `-2^63` has no positive counterpart, and checks after each
multiply-subtract that it neither started below `LONGLONG_MIN / DIG_BASE` nor wrapped
above its old value; `decimal2ulonglong` is its unsigned twin.

`LONGLONG_MIN` and `LONGLONG_MAX` of `my_global.h` are `LLONG_MIN` and `LLONG_MAX`.
The `longlong` arithmetic wraps as GCC compiles it (`Int.bmod _ (2 ^ 64)`; C leaves
the overflow undefined), the `ulonglong` arithmetic is modulo `2 ^ 64`. The words of a
number are read with `List.takeD`: a word past the buffer reads as 0.

What the module shows: from every 64-bit integer `longlong2decimal` makes a well-formed
decimal of that value (`longlong2decimal_spec`), and `decimal2longlong` of every
well-formed decimal gives its value truncated toward zero, with `E_DEC_OK` for an
integer, `E_DEC_TRUNCATED` for a fraction, and the bound of its sign with
`E_DEC_OVERFLOW` when the truncation is not a 64-bit integer (`decimal2longlong_spec`).
The overflow check is exact: it fires on the first word after which the magnitude
passes `2^63` (`decimal2longlong.int_part_cons`).
-/

set_option autoImplicit false

namespace AliSql

open Libc Radix

/-! ## The model -/

/-- The loop `for (intg1= 0; from != 0; intg1++, from/= DIG_BASE)`: the words `from`
    takes. It runs once per word, so `fuel = 64` rounds are enough for a 64-bit value. -/
def ull2dec.count : Nat → Nat → Nat
  | 0, _ => 0
  | fuel + 1, from_ => if from_ = 0 then 0 else ull2dec.count fuel (from_ / DIG_BASE.toNat) + 1

/-- `for (buf= to->buf + intg1; intg1; intg1--)`: the words of `x`, the last one first. -/
def ull2dec.store : Nat → List Int → Nat → List Int
  | 0, buf, _ => buf
  | k + 1, buf, x =>
    ull2dec.store k (buf.set k ((x % DIG_BASE.toNat : Nat) : Int)) (x / DIG_BASE.toNat)

/-- `ull2dec(from, to)`, for `from` below `2^64`; `to` keeps its sign. -/
def ull2dec (from_ : Nat) (to_ : decimal_t) : decimal_t × Nat :=
  let intg1 := if from_ = 0 then 1 else ull2dec.count 64 from_
  let (intg1, error) := if intg1 > to_.len then (to_.len, E_DEC_OVERFLOW) else (intg1, E_DEC_OK)
  ({ to_ with frac := 0, intg := intg1 * DIG_PER_DEC1, buf := ull2dec.store intg1 to_.buf from_ },
    error)

/-- `ulonglong2decimal(from, to)`. -/
def ulonglong2decimal (from_ : Nat) (to_ : decimal_t) : decimal_t × Nat :=
  ull2dec from_ { to_ with sign := false }

/-- `longlong2decimal(from, to)`: `ull2dec(-from, to)` for a negative `from`, the
    negation taken modulo `2^64` by the `ulonglong` parameter. -/
def longlong2decimal (from_ : Int) (to_ : decimal_t) : decimal_t × Nat :=
  if from_ < 0 then ull2dec ((-from_) % 2 ^ 64).toNat { to_ with sign := true }
  else ull2dec from_.toNat { to_ with sign := false }

example : longlong2decimal (-1234567890123) ⟨0, 0, 3, false, [0, 0, 0]⟩ =
    (⟨18, 0, 3, true, [1234, 567890123, 0]⟩, E_DEC_OK) := by decide

/-- The integer loop of `decimal2ulonglong`: `x = x * DIG_BASE + *buf++` modulo `2^64`,
    `none` when it overflowed. -/
def decimal2ulonglong.int_part : List Int → Nat → Option Nat
  | [], x => some x
  | w :: ws, y =>
    let x := ((y * DIG_BASE + w) % 2 ^ 64).toNat
    if y > (2 ^ 64 - 1) / DIG_BASE.toNat ∨ x < y then none else int_part ws x

/-- `decimal2ulonglong(from, &to)`: the value stored in `*to` and the error. -/
def decimal2ulonglong (from_ : decimal_t) : Nat × Nat :=
  if from_.sign then (0, E_DEC_OVERFLOW)
  else
    match decimal2ulonglong.int_part (from_.buf.takeD (ROUND_UP from_.intg) 0) 0 with
    | none => (2 ^ 64 - 1, E_DEC_OVERFLOW)
    | some x =>
      if ((from_.buf.drop (ROUND_UP from_.intg)).takeD (ROUND_UP from_.frac) 0).any (· ≠ 0) then
        (x, E_DEC_TRUNCATED)
      else (x, E_DEC_OK)

/-- The integer loop of `decimal2longlong`: `x = x * DIG_BASE - *buf++` in wrapping
    `longlong` arithmetic, `none` when the check after a word finds an overflow. -/
def decimal2longlong.int_part : List Int → Int → Option Int
  | [], x => some x
  | w :: ws, y =>
    let x := Int.bmod (y * DIG_BASE - w) (2 ^ 64)
    if y < LLONG_MIN.tdiv DIG_BASE ∨ x > y then none else int_part ws x

/-- `decimal2longlong(from, &to)`: the value stored in `*to` and the error. -/
def decimal2longlong (from_ : decimal_t) : Int × Nat :=
  match decimal2longlong.int_part (from_.buf.takeD (ROUND_UP from_.intg) 0) 0 with
  | none => (if from_.sign then LLONG_MIN else LLONG_MAX, E_DEC_OVERFLOW)
  | some x =>
    -- boundary case: 9223372036854775808
    if from_.sign = false ∧ x = LLONG_MIN then (LLONG_MAX, E_DEC_OVERFLOW)
    else
      let v := if from_.sign then x else -x
      if ((from_.buf.drop (ROUND_UP from_.intg)).takeD (ROUND_UP from_.frac) 0).any (· ≠ 0) then
        (v, E_DEC_TRUNCATED)
      else (v, E_DEC_OK)

example : decimal2longlong ⟨19, 0, 3, false, [9, 223372036, 854775808]⟩ =
    (LLONG_MAX, E_DEC_OVERFLOW) := by decide

example : decimal2longlong ⟨19, 0, 3, true, [9, 223372036, 854775808]⟩ =
    (LLONG_MIN, E_DEC_OK) := by decide

/-! ## What the words of a decimal read as -/

/-- `well_formed`, as the conjunction it decides. -/
theorem decimal_t.well_formed_iff (d : decimal_t) :
    d.well_formed = true ↔
      ROUND_UP d.intg + ROUND_UP d.frac ≤ d.len ∧ d.buf.length = d.len ∧
      (∀ w ∈ d.buf.take (ROUND_UP d.intg + ROUND_UP d.frac), 0 ≤ w ∧ w < DIG_BASE) ∧
      (d.intg % DIG_PER_DEC1 = 0 ∨ d.buf.getD 0 0 < 10 ^ (d.intg % DIG_PER_DEC1)) ∧
      (d.frac % DIG_PER_DEC1 = 0 ∨
        d.buf.getD (ROUND_UP d.intg + ROUND_UP d.frac - 1) 0 %
          10 ^ (DIG_PER_DEC1 - d.frac % DIG_PER_DEC1) = 0) := by
  simp [decimal_t.well_formed, and_assoc]

theorem DIG_BASE_toNat_cast : (DIG_BASE.toNat : Int) = DIG_BASE := rfl

theorem DIG_BASE_toNat : DIG_BASE.toNat = 1000000000 := rfl

/-- The integer words of `d` read in base `DIG_BASE`: its magnitude, truncated. -/
def decimal_t.int_words (d : decimal_t) : Int :=
  (d.buf.take (ROUND_UP d.intg)).foldl (fun a w => a * DIG_BASE + w) 0

/-- The fraction words of `d` read in base `DIG_BASE`: the numerator of its fraction over
    `DIG_BASE ^ ROUND_UP frac`. -/
def decimal_t.frac_words (d : decimal_t) : Int :=
  ((d.buf.drop (ROUND_UP d.intg)).take (ROUND_UP d.frac)).foldl (fun a w => a * DIG_BASE + w) 0

/-- The fraction words are all in a buffer that holds the words of `d`. -/
theorem decimal_t.length_frac_take (d : decimal_t)
    (h : ROUND_UP d.intg + ROUND_UP d.frac ≤ d.buf.length) :
    ((d.buf.drop (ROUND_UP d.intg)).take (ROUND_UP d.frac)).length = ROUND_UP d.frac := by
  simp only [List.length_take, List.length_drop]
  omega

/-- A decimal whose words are in its buffer is its integer words and its fraction, with
    its sign. -/
theorem decimal_t.value_split (d : decimal_t)
    (h : ROUND_UP d.intg + ROUND_UP d.frac ≤ d.buf.length) :
    d.value = (if d.sign then -1 else 1) *
      (d.int_words + d.frac_words / (DIG_BASE : ℚ) ^ ROUND_UP d.frac) := by
  have hB : (DIG_BASE : ℚ) ^ ROUND_UP d.frac ≠ 0 := pow_ne_zero _ (by simp [DIG_BASE])
  -- the integer words shifted past the fraction words, plus the fraction words
  have hsum : (d.buf.take (ROUND_UP d.intg + ROUND_UP d.frac)).foldl
      (fun a w => a * DIG_BASE + w) 0 =
        d.int_words * DIG_BASE ^ ROUND_UP d.frac + d.frac_words := by
    rw [List.take_add, List.foldl_append,
      foldl_mul_add_eq DIG_BASE ((d.buf.drop (ROUND_UP d.intg)).take (ROUND_UP d.frac)),
      d.length_frac_take h]
    rfl
  simp only [decimal_t.value, hsum]
  push_cast
  rw [add_div, mul_div_cancel_right₀ _ hB]
  split_ifs <;> ring

/-! ## `ull2dec` writes the words of its argument -/

theorem ull2dec.count_le :
    ∀ (fuel x k : Nat), x < DIG_BASE.toNat ^ k → ull2dec.count fuel x ≤ k
  | 0, _, _, _ => Nat.zero_le _
  | fuel + 1, x, k, h => by
    unfold ull2dec.count
    split_ifs with hx
    · exact Nat.zero_le _
    · -- a number other than zero needs a word, and its quotient one word fewer
      cases k with
      | zero => simp at h; omega
      | succ k =>
        have hq : x / DIG_BASE.toNat < DIG_BASE.toNat ^ k := by
          rw [Nat.div_lt_iff_lt_mul (by decide)]
          rwa [pow_succ] at h
        exact Nat.succ_le_succ (ull2dec.count_le fuel _ k hq)

theorem ull2dec.lt_pow_count : ∀ (fuel x : Nat), x < DIG_BASE.toNat ^ fuel →
    x < DIG_BASE.toNat ^ ull2dec.count fuel x
  | 0, _, h => h
  | fuel + 1, x, h => by
    unfold ull2dec.count
    split_ifs with hx
    · simp [hx]
    · have hq : x / DIG_BASE.toNat < DIG_BASE.toNat ^ fuel := by
        rw [Nat.div_lt_iff_lt_mul (by decide)]
        rwa [pow_succ] at h
      have ih := ull2dec.lt_pow_count fuel _ hq
      rw [Nat.div_lt_iff_lt_mul (by decide)] at ih
      rwa [pow_succ]

@[simp] theorem ull2dec.length_store :
    ∀ (k : Nat) (buf : List Int) (x : Nat), (ull2dec.store k buf x).length = buf.length
  | 0, _, _ => rfl
  | k + 1, buf, x => by rw [ull2dec.store, ull2dec.length_store k, List.length_set]

/-- `store k` writes below word `k` only. -/
theorem ull2dec.getElem?_store_of_le :
    ∀ (k : Nat) (buf : List Int) (x i : Nat), k ≤ i → (ull2dec.store k buf x)[i]? = buf[i]?
  | 0, _, _, _, _ => rfl
  | k + 1, buf, x, i, h => by
    rw [ull2dec.store, ull2dec.getElem?_store_of_le k _ _ i (by omega),
      List.getElem?_set_ne (by omega)]

/-- The first `k` words `store k` leaves are digits of base `DIG_BASE` and read as `x`
    modulo `DIG_BASE ^ k`. -/
theorem ull2dec.store_take : ∀ (k : Nat) (buf : List Int) (x : Nat), k ≤ buf.length →
    ((ull2dec.store k buf x).take k).foldl (fun a w => a * DIG_BASE + w) 0 =
        ((x % DIG_BASE.toNat ^ k : Nat) : Int) ∧
      ∀ w ∈ (ull2dec.store k buf x).take k, 0 ≤ w ∧ w < DIG_BASE
  | 0, _, x, _ => by simp [Nat.mod_one]
  | k + 1, buf, x, h => by
    -- word `k` holds the low digit, the words before it the digits of the quotient
    set r : Int := ((x % DIG_BASE.toNat : Nat) : Int) with hr
    obtain ⟨ih₁, ih₂⟩ :=
      ull2dec.store_take k (buf.set k r) (x / DIG_BASE.toNat) (by simp; omega)
    have hk : (ull2dec.store k (buf.set k r) (x / DIG_BASE.toNat))[k]? = some r := by
      rw [ull2dec.getElem?_store_of_le k _ _ k le_rfl, List.getElem?_set_self (by omega)]
    rw [ull2dec.store, List.take_add_one, hk, Option.toList_some]
    refine ⟨?_, ?_⟩
    · rw [List.foldl_append, ih₁, List.foldl_cons, List.foldl_nil, pow_succ', Nat.mod_mul, hr,
        Nat.cast_add, Nat.cast_mul, DIG_BASE_toNat_cast]
      ring
    · rintro w hw
      rcases List.mem_append.mp hw with hw | hw
      · exact ih₂ w hw
      · rw [List.mem_singleton.mp hw, hr, DIG_BASE_toNat, DIG_BASE]
        omega

/-- The words `ull2dec` takes for `u < 10^27`: one for zero, otherwise as many as `u` has,
    at most three, and `u` is below `DIG_BASE` to their number. -/
theorem ull2dec.words_spec (u : Nat) (hu : u < DIG_BASE.toNat ^ 3) :
    1 ≤ (if u = 0 then 1 else ull2dec.count 64 u) ∧
      (if u = 0 then 1 else ull2dec.count 64 u) ≤ 3 ∧
      u < DIG_BASE.toNat ^ (if u = 0 then 1 else ull2dec.count 64 u) := by
  split_ifs with h0
  · subst h0
    decide
  · refine ⟨?_, ull2dec.count_le 64 u 3 hu, ull2dec.lt_pow_count 64 u ?_⟩
    · rw [ull2dec.count, if_neg h0]
      omega
    · exact hu.trans_le (Nat.pow_le_pow_right (by decide) (by decide))

/-- `ull2dec` of a number below `10^27`, into a buffer of three words or more: no error,
    a well-formed decimal, and the number with the sign `to` had. -/
theorem ull2dec_spec (u : Nat) (to_ : decimal_t) (hu : u < DIG_BASE.toNat ^ 3)
    (hlen : 3 ≤ to_.len) (hbuf : to_.buf.length = to_.len) :
    (ull2dec u to_).2 = E_DEC_OK ∧ (ull2dec u to_).1.well_formed = true ∧
      (ull2dec u to_).1.value = if to_.sign then -(u : ℚ) else u := by
  obtain ⟨h1, h3, hlt⟩ := ull2dec.words_spec u hu
  unfold ull2dec
  generalize (if u = 0 then 1 else ull2dec.count 64 u) = n at h1 h3 hlt ⊢
  dsimp only
  rw [if_neg (show ¬ n > to_.len by omega)]
  obtain ⟨hval, hdig⟩ := ull2dec.store_take n to_.buf u (by omega)
  have hround : ROUND_UP (n * DIG_PER_DEC1) = n := by simp only [ROUND_UP, DIG_PER_DEC1]; omega
  have hround0 : ROUND_UP 0 = 0 := rfl
  refine ⟨rfl, ?_, ?_⟩
  · -- whole words of integer digits and no fraction: only the length and the digits to check
    rw [decimal_t.well_formed_iff]
    simp only [hround, hround0, Nat.add_zero, ull2dec.length_store]
    exact ⟨by omega, hbuf, hdig, Or.inl (Nat.mul_mod_left n _), Or.inl rfl⟩
  · simp [decimal_t.value, hround, hround0, hval, Nat.mod_eq_of_lt hlt]

/-- `DIG_BASE ^ 3` bounds every 64-bit magnitude. -/
theorem lt_DIG_BASE_cube {u : Nat} (h : u ≤ 2 ^ 64) : u < DIG_BASE.toNat ^ 3 := by
  rw [DIG_BASE_toNat]
  omega

/-- `longlong2decimal` of a 64-bit integer, into a buffer of three words or more: no
    error, a well-formed decimal, and the integer. `LONGLONG_MIN` goes through the
    `ulonglong` negation as `2^63`. -/
theorem longlong2decimal_spec (x : Int) (to_ : decimal_t) (hlo : LLONG_MIN ≤ x)
    (hhi : x ≤ LLONG_MAX) (hlen : 3 ≤ to_.len) (hbuf : to_.buf.length = to_.len) :
    (longlong2decimal x to_).2 = E_DEC_OK ∧ (longlong2decimal x to_).1.well_formed = true ∧
      (longlong2decimal x to_).1.value = x := by
  simp only [LLONG_MIN, LLONG_MAX] at hlo hhi
  unfold longlong2decimal
  split_ifs with hneg
  · have hu : (((-x) % 2 ^ 64).toNat : Int) = -x := by omega
    obtain ⟨he, hw, hv⟩ := ull2dec_spec ((-x) % 2 ^ 64).toNat { to_ with sign := true }
      (lt_DIG_BASE_cube (by omega)) hlen hbuf
    refine ⟨he, hw, ?_⟩
    rw [hv, if_pos rfl, ← Int.cast_natCast, hu, Int.cast_neg, neg_neg]
  · have hu : (x.toNat : Int) = x := by omega
    obtain ⟨he, hw, hv⟩ := ull2dec_spec x.toNat { to_ with sign := false }
      (lt_DIG_BASE_cube (by omega)) hlen hbuf
    refine ⟨he, hw, ?_⟩
    rw [hv, if_neg Bool.false_ne_true, ← Int.cast_natCast, hu]


/-! ## `decimal2longlong` truncates and saturates -/

/-- Truncation toward zero, as C converts a number to an integer. -/
def rat_trunc (q : ℚ) : Int := if 0 ≤ q then ⌊q⌋ else ⌈q⌉

/-- A signed number of integer part `M` and fraction `f` truncates to `±M`. -/
theorem rat_trunc_signed (M : Int) (f : ℚ) (hM : 0 ≤ M) (hf0 : 0 ≤ f) (hf1 : f < 1)
    (s : Bool) :
    rat_trunc ((if s then -1 else 1) * (M + f)) = if s then -M else M := by
  have hM' : (0 : ℚ) ≤ M := by exact_mod_cast hM
  unfold rat_trunc
  cases s
  · rw [if_pos (by simp; linarith), Int.floor_eq_iff]
    simp
    constructor <;> linarith
  · simp only [if_pos]
    by_cases h0 : (0 : ℚ) ≤ -1 * (M + f)
    · -- only zero is its own negation here
      have hM0 : M = 0 := le_antisymm (by exact_mod_cast (by linarith : (M : ℚ) ≤ 0)) hM
      have hf : f = 0 := by
        rw [hM0, Int.cast_zero] at h0
        linarith
      rw [if_pos h0, hM0, hf]
      simp
    · rw [if_neg h0, Int.ceil_eq_iff]
      push_cast
      constructor <;> linarith


/-- The truncation `±M` of `±(M + f)` is the number itself exactly when `f` is zero. -/
theorem signed_eq_trunc_iff (M : Int) (f : ℚ) (s : Bool) :
    (((if s then -M else M : Int) : ℚ) = (if s then -1 else 1) * (M + f)) ↔ f = 0 := by
  cases s <;> simp

/-- One word of the loop from `-P`, for a magnitude `P` up to `2^63`: the check after the
    multiply-subtract fires exactly when the magnitude passes `2^63`. Below
    `LONGLONG_MIN / DIG_BASE` the product does not fit; above it, a result past
    `-2^63` wraps to a positive number, which is above `-P`. -/
theorem decimal2longlong.int_part_cons (w : Int) (ws : List Int) (P : Int) (hP0 : 0 ≤ P)
    (hP : P ≤ 2 ^ 63) (hw0 : 0 ≤ w) (hw : w < DIG_BASE) :
    decimal2longlong.int_part (w :: ws) (-P) =
      if P * DIG_BASE + w ≤ 2 ^ 63 then decimal2longlong.int_part ws (-(P * DIG_BASE + w))
      else none := by
  have hB : DIG_BASE = 1000000000 := rfl
  have hmin : LLONG_MIN.tdiv 1000000000 = -9223372036 := by decide
  rw [hB] at hw ⊢
  simp only [decimal2longlong.int_part]
  rw [hB, hmin]
  by_cases hbig : 9223372036 < P
  · -- the first test fires, and the magnitude is past `2^63` already
    rw [if_pos (Or.inl (by omega)), if_neg (by omega)]
  · -- the product fits in 64 bits: it wraps exactly when it passes `-2^63`
    have hx : Int.bmod (-P * 1000000000 - w) (2 ^ 64) =
        if P * 1000000000 + w ≤ 2 ^ 63 then -(P * 1000000000 + w)
        else 2 ^ 64 - (P * 1000000000 + w) := by
      simp only [Int.bmod]
      split_ifs <;> omega
    rw [hx]
    by_cases hc : P * 1000000000 + w ≤ 2 ^ 63
    · rw [if_pos hc, if_pos hc, if_neg (by omega)]
    · rw [if_neg hc, if_neg hc, if_pos (Or.inr (by omega))]


/-- The loop over the words from `-P`: the negated magnitude while it stays within
    `2^63`, otherwise the overflow. -/
theorem decimal2longlong.int_part_eq : ∀ (ws : List Int) (P : Int), 0 ≤ P → P ≤ 2 ^ 63 →
    (∀ w ∈ ws, 0 ≤ w ∧ w < DIG_BASE) →
    decimal2longlong.int_part ws (-P) =
      if ws.foldl (fun a w => a * DIG_BASE + w) P ≤ 2 ^ 63 then
        some (-ws.foldl (fun a w => a * DIG_BASE + w) P)
      else none
  | [], P, _, hP, _ => by rw [decimal2longlong.int_part, List.foldl_nil, if_pos hP]
  | w :: ws, P, hP0, hP, h => by
    obtain ⟨hw0, hw⟩ := h w List.mem_cons_self
    have hrest : ∀ v ∈ ws, 0 ≤ v ∧ v < DIG_BASE :=
      fun v hv => h v (List.mem_cons_of_mem w hv)
    have hnext : 0 ≤ P * DIG_BASE + w := by simp only [DIG_BASE]; omega
    rw [decimal2longlong.int_part_cons w ws P hP0 hP hw0 hw, List.foldl_cons]
    by_cases hstep : P * DIG_BASE + w ≤ 2 ^ 63
    · rw [if_pos hstep]
      exact decimal2longlong.int_part_eq ws _ hnext hstep hrest
    · -- past `2^63` after this word, and the words after it only add
      have hle := le_foldl_mul_add (by decide : (1 : Int) ≤ DIG_BASE) hnext
        fun v hv => (hrest v hv).1
      rw [if_neg hstep, if_neg (by omega)]


/-- `decimal2longlong` of a well-formed decimal: its value truncated toward zero, with
    `E_DEC_OK` when that is the value and `E_DEC_TRUNCATED` when a fraction was dropped,
    if the truncation is a `longlong`; otherwise the bound on the side of the value, with
    `E_DEC_OVERFLOW`. -/
theorem decimal2longlong_spec (d : decimal_t) (hd : d.well_formed = true) :
    decimal2longlong d =
      if LLONG_MIN ≤ rat_trunc d.value ∧ rat_trunc d.value ≤ LLONG_MAX then
        (rat_trunc d.value,
          if (rat_trunc d.value : ℚ) = d.value then E_DEC_OK else E_DEC_TRUNCATED)
      else (if d.value < 0 then LLONG_MIN else LLONG_MAX, E_DEC_OVERFLOW) := by
  obtain ⟨hn, hlen, hdig, -, -⟩ := (decimal_t.well_formed_iff d).mp hd
  have hsplit := @List.take_add _ d.buf (ROUND_UP d.intg) (ROUND_UP d.frac)
  have hI : ∀ w ∈ d.buf.take (ROUND_UP d.intg), 0 ≤ w ∧ w < DIG_BASE :=
    fun w hw => hdig w (hsplit ▸ List.mem_append_left _ hw)
  have hF : ∀ w ∈ (d.buf.drop (ROUND_UP d.intg)).take (ROUND_UP d.frac),
      0 ≤ w ∧ w < DIG_BASE :=
    fun w hw => hdig w (hsplit ▸ List.mem_append_right _ hw)
  have hM0 : 0 ≤ d.int_words := (foldl_mul_add_bounds (by decide) hI).1
  -- the fraction words make a number in `[0, 1)`
  obtain ⟨hF0, hF1⟩ := foldl_mul_add_bounds (by decide : (0 : Int) < DIG_BASE) hF
  rw [d.length_frac_take (by omega)] at hF1
  have hpos : (0 : ℚ) < (DIG_BASE : ℚ) ^ ROUND_UP d.frac := pow_pos (by simp [DIG_BASE]) _
  have hf0 : (0 : ℚ) ≤ d.frac_words / (DIG_BASE : ℚ) ^ ROUND_UP d.frac :=
    div_nonneg (by exact_mod_cast hF0) hpos.le
  have hf1 : (d.frac_words : ℚ) / (DIG_BASE : ℚ) ^ ROUND_UP d.frac < 1 := by
    rw [div_lt_one hpos]
    exact_mod_cast hF1
  have hval := d.value_split (by omega)
  have htrunc : rat_trunc d.value = if d.sign then -d.int_words else d.int_words := by
    rw [hval]
    exact rat_trunc_signed _ _ hM0 hf0 hf1 d.sign
  have hexact : (rat_trunc d.value : ℚ) = d.value ↔ d.frac_words = 0 := by
    rw [htrunc, hval, signed_eq_trunc_iff, div_eq_zero_iff, or_iff_left (ne_of_gt hpos)]
    exact_mod_cast Iff.rfl
  rw [htrunc] at hexact
  -- the fraction test of the code
  have hany : ((d.buf.drop (ROUND_UP d.intg)).takeD (ROUND_UP d.frac) 0).any (· ≠ 0) = true ↔
      d.frac_words ≠ 0 := by
    rw [List.takeD_eq_take _ (by simp only [List.length_drop]; omega), decimal_t.frac_words, Ne,
      foldl_mul_add_eq_zero_iff (by decide) hF]
    simp
  have hloop : decimal2longlong.int_part (d.buf.takeD (ROUND_UP d.intg) 0) 0 =
      if d.int_words ≤ 2 ^ 63 then some (-d.int_words) else none := by
    rw [List.takeD_eq_take _ (by omega), ← neg_zero]
    exact decimal2longlong.int_part_eq _ 0 le_rfl (by norm_num) hI
  -- a value with an integer part has the sign of the flag
  have hneg : 0 < d.int_words → (d.value < 0 ↔ d.sign = true) := by
    intro hM
    have hM' : (0 : ℚ) < d.int_words := by exact_mod_cast hM
    rw [hval]
    cases d.sign <;> simp <;> linarith
  unfold decimal2longlong
  rw [hloop, htrunc]
  by_cases hM : d.int_words ≤ 2 ^ 63
  · rw [if_pos hM]
    dsimp only
    simp only [hany, hexact]
    cases hs : d.sign
    · -- positive: `2^63` is the one magnitude the loop takes that is not a `longlong`
      by_cases hmax : d.int_words = 2 ^ 63
      · have hv : ¬ d.value < 0 := by simp [hneg (by omega), hs]
        simp [LLONG_MIN, LLONG_MAX, hmax, hv]
      · have hin : LLONG_MIN ≤ d.int_words ∧ d.int_words ≤ LLONG_MAX := by
          simp only [LLONG_MIN, LLONG_MAX]
          omega
        have hcode : ¬ -d.int_words = LLONG_MIN := by
          simp only [LLONG_MIN]
          omega
        by_cases hz : d.frac_words = 0 <;> simp [hz, hcode, hin]
    · have hin : LLONG_MIN ≤ -d.int_words ∧ -d.int_words ≤ LLONG_MAX := by
        simp only [LLONG_MIN, LLONG_MAX]
        omega
      by_cases hz : d.frac_words = 0 <;> simp [hz, hin]
  · -- past `2^63`: neither sign has a `longlong` of that magnitude
    have hout : ¬ ((LLONG_MIN ≤ if d.sign then -d.int_words else d.int_words) ∧
        (if d.sign then -d.int_words else d.int_words) ≤ LLONG_MAX) := by
      cases d.sign <;> simp only [LLONG_MIN, LLONG_MAX] <;> omega
    rw [if_neg hM, if_neg hout]
    simp only [hneg (by omega)]


/-! ## The conversions -/

theorem decimal_integer_conversions :
    (∀ (x : Int) (to_ : decimal_t), LLONG_MIN ≤ x → x ≤ LLONG_MAX → 3 ≤ to_.len →
      to_.buf.length = to_.len →
        (longlong2decimal x to_).2 = E_DEC_OK ∧ (longlong2decimal x to_).1.well_formed = true ∧
          (longlong2decimal x to_).1.value = x) ∧
    ∀ d : decimal_t, d.well_formed = true →
      decimal2longlong d =
        if LLONG_MIN ≤ rat_trunc d.value ∧ rat_trunc d.value ≤ LLONG_MAX then
          (rat_trunc d.value,
            if (rat_trunc d.value : ℚ) = d.value then E_DEC_OK else E_DEC_TRUNCATED)
        else (if d.value < 0 then LLONG_MIN else LLONG_MAX, E_DEC_OVERFLOW) :=
  ⟨longlong2decimal_spec, decimal2longlong_spec⟩

/-- `LONGLONG_MIN` into three words, and `-9223372036854775808` back. -/
theorem decimal_integer_conversions_llong_min :
    ((longlong2decimal LLONG_MIN ⟨0, 0, 3, false, [0, 0, 0]⟩).2 = E_DEC_OK ∧
      (longlong2decimal LLONG_MIN ⟨0, 0, 3, false, [0, 0, 0]⟩).1.well_formed = true ∧
      (longlong2decimal LLONG_MIN ⟨0, 0, 3, false, [0, 0, 0]⟩).1.value = LLONG_MIN) ∧
    decimal2longlong ⟨19, 0, 3, true, [9, 223372036, 854775808]⟩ =
      if LLONG_MIN ≤ rat_trunc (decimal_t.value ⟨19, 0, 3, true, [9, 223372036, 854775808]⟩) ∧
          rat_trunc (decimal_t.value ⟨19, 0, 3, true, [9, 223372036, 854775808]⟩) ≤ LLONG_MAX then
        (rat_trunc (decimal_t.value ⟨19, 0, 3, true, [9, 223372036, 854775808]⟩),
          if (rat_trunc (decimal_t.value ⟨19, 0, 3, true, [9, 223372036, 854775808]⟩) : ℚ) =
              decimal_t.value ⟨19, 0, 3, true, [9, 223372036, 854775808]⟩ then E_DEC_OK
          else E_DEC_TRUNCATED)
      else (if decimal_t.value ⟨19, 0, 3, true, [9, 223372036, 854775808]⟩ < 0 then LLONG_MIN
        else LLONG_MAX, E_DEC_OVERFLOW) :=
  ⟨decimal_integer_conversions.1 LLONG_MIN ⟨0, 0, 3, false, [0, 0, 0]⟩ le_rfl (by decide)
      (by decide) rfl,
    decimal_integer_conversions.2 ⟨19, 0, 3, true, [9, 223372036, 854775808]⟩ (by decide)⟩

end AliSql
