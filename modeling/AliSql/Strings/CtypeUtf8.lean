import Mathlib
import AliSql.Lib.Bytes

/-!
# The utf8mb4 character set (`strings/ctype-utf8.c`)

The four functions by which the server reads and writes utf8mb4 text, and the two twins
that skip the end-of-buffer checks:

- `my_mb_wc_utf8mb4` and `my_mb_wc_utf8mb4_no_range` decode the character at the start of
  a buffer into a code point;
- `my_wc_mb_utf8mb4` and `my_wc_mb_utf8mb4_no_range` encode a code point; their `switch`
  falls through from the last byte to the first, which is `my_wc_mb_utf8mb4_fill`;
- `my_valid_mbcharlen_utf8mb4` (with `my_valid_mbcharlen_utf8mb3` for lead bytes below
  `0xf0`) and `my_mbcharlen_utf8mb4` give a character's length without decoding it;
- `my_well_formed_len_utf8mb4` walks `pos` characters with `my_valid_mbcharlen_utf8mb4`.

A buffer `[s, e)` is the list of its bytes. `my_mb_wc_utf8mb4_no_range` reads a
NUL-terminated string past its end only after a continuation byte, so its buffer is a list
read with `getD _ _ 0`. An output `*pwc` is `some` when the function writes it, and an
encoder returns the bytes it writes. A code point, `my_wc_t`, is an `unsigned long`: the
decoders produce values below `0x200000` and the encoders refuse every value from there on,
so no operation on it wraps and it is a `Nat` here.

Over the model stands `utf8_form`, the UTF-8 form of a code point written in arithmetic.
The decoders accept a buffer exactly when it starts with the form of a code point below
`0x110000` (`my_mb_wc_utf8mb4_eq_some`), and the encoders write that form for every code
point below `0x200000` (`my_wc_mb_utf8mb4_no_range_form`). The encoders therefore write
four bytes for the code points `0x110000`–`0x1FFFFF` that no decoder reads back.
-/

namespace AliSql

/-! ## Return codes (`include/m_ctype.h`) -/

def MY_CS_ILSEQ : Int := 0
def MY_CS_ILUNI : Int := 0
def MY_CS_TOOSMALL : Int := -101
def MY_CS_TOOSMALL2 : Int := -102
def MY_CS_TOOSMALL3 : Int := -103
def MY_CS_TOOSMALL4 : Int := -104
def MY_CS_TOOSMALLN (n : Nat) : Int := -100 - n

/-! ## The model -/

def IS_CONTINUATION_BYTE (c : UInt8) : Bool := (c ^^^ 0x80) < 0x40

/-- Called on a nonempty buffer whose lead byte is below `0xf0` (its two assertions). -/
def my_valid_mbcharlen_utf8mb3 (s : List UInt8) : Int :=
  let c := s.getD 0 0
  if c < 0x80 then 1
  else if c < 0xc2 then MY_CS_ILSEQ
  else if c < 0xe0 then
    if s.length < 2 then MY_CS_TOOSMALL2
    else if !IS_CONTINUATION_BYTE (s.getD 1 0) then MY_CS_ILSEQ
    else 2
  else if s.length < 3 then MY_CS_TOOSMALL3
  else if !(IS_CONTINUATION_BYTE (s.getD 1 0) && IS_CONTINUATION_BYTE (s.getD 2 0) &&
      (c ≥ 0xe1 || s.getD 1 0 ≥ 0xa0)) then MY_CS_ILSEQ
  else 3

def my_mb_wc_utf8mb4 (s : List UInt8) : Int × Option Nat :=
  match s with
  | [] => (MY_CS_TOOSMALL, none)
  | c :: _ =>
    let s1 := s.getD 1 0
    let s2 := s.getD 2 0
    let s3 := s.getD 3 0
    if c < 0x80 then (1, some c.toNat)
    else if c < 0xc2 then (MY_CS_ILSEQ, none)
    else if c < 0xe0 then
      if s.length < 2 then (MY_CS_TOOSMALL2, none)
      else if !IS_CONTINUATION_BYTE s1 then (MY_CS_ILSEQ, none)
      else (2, some (((c &&& 0x1f).toNat <<< 6) ||| (s1 ^^^ 0x80).toNat))
    else if c < 0xf0 then
      if s.length < 3 then (MY_CS_TOOSMALL3, none)
      else if !(IS_CONTINUATION_BYTE s1 && IS_CONTINUATION_BYTE s2 && (c ≥ 0xe1 || s1 ≥ 0xa0)) then
        (MY_CS_ILSEQ, none)
      else (3, some (((c &&& 0x0f).toNat <<< 12) ||| ((s1 ^^^ 0x80).toNat <<< 6) |||
        (s2 ^^^ 0x80).toNat))
    else if c < 0xf5 then
      if s.length < 4 then (MY_CS_TOOSMALL4, none)
      else if !(IS_CONTINUATION_BYTE s1 && IS_CONTINUATION_BYTE s2 && IS_CONTINUATION_BYTE s3 &&
          (c ≥ 0xf1 || s1 ≥ 0x90) && (c ≤ 0xf3 || s1 ≤ 0x8F)) then (MY_CS_ILSEQ, none)
      else (4, some (((c &&& 0x07).toNat <<< 18) ||| ((s1 ^^^ 0x80).toNat <<< 12) |||
        ((s2 ^^^ 0x80).toNat <<< 6) ||| (s3 ^^^ 0x80).toNat))
    else (MY_CS_ILSEQ, none)

def my_mb_wc_utf8mb4_no_range (s : List UInt8) : Int × Option Nat :=
  let c := s.getD 0 0
  let s1 := s.getD 1 0
  let s2 := s.getD 2 0
  let s3 := s.getD 3 0
  if c < 0x80 then (1, some c.toNat)
  else if c < 0xc2 then (MY_CS_ILSEQ, none)
  else if c < 0xe0 then
    if !IS_CONTINUATION_BYTE s1 then (MY_CS_ILSEQ, none)
    else (2, some (((c &&& 0x1f).toNat <<< 6) ||| (s1 ^^^ 0x80).toNat))
  else if c < 0xf0 then
    if !(IS_CONTINUATION_BYTE s1 && IS_CONTINUATION_BYTE s2 && (c ≥ 0xe1 || s1 ≥ 0xa0)) then
      (MY_CS_ILSEQ, none)
    else (3, some (((c &&& 0x0f).toNat <<< 12) ||| ((s1 ^^^ 0x80).toNat <<< 6) |||
      (s2 ^^^ 0x80).toNat))
  else if c < 0xf5 then
    if !(IS_CONTINUATION_BYTE s1 && IS_CONTINUATION_BYTE s2 && IS_CONTINUATION_BYTE s3 &&
        (c ≥ 0xf1 || s1 ≥ 0x90) && (c ≤ 0xf3 || s1 ≤ 0x8F)) then (MY_CS_ILSEQ, none)
    else (4, some (((c &&& 0x07).toNat <<< 18) ||| ((s1 ^^^ 0x80).toNat <<< 12) |||
      ((s2 ^^^ 0x80).toNat <<< 6) ||| (s3 ^^^ 0x80).toNat))
  else (MY_CS_ILSEQ, none)

/-- The `count` ladder both encoders open with. -/
def my_wc_mb_utf8mb4_count (wc : Nat) : Option Nat :=
  if wc < 0x80 then some 1
  else if wc < 0x800 then some 2
  else if wc < 0x10000 then some 3
  else if wc < 0x200000 then some 4
  else none

/-- The encoders' `switch (count)` from `case k + 1` on: it writes `r[k]`, shifts `wc` and
ors in the marker of the next case, and falls through down to `case 1`, which writes `r[0]`. -/
def my_wc_mb_utf8mb4_fill : Nat → Nat → List UInt8
  | 0, wc => [UInt8.ofNat wc]
  | k + 1, wc =>
    my_wc_mb_utf8mb4_fill k ((wc >>> 6) ||| [0xc0, 0x800, 0x10000].getD k 0) ++
      [UInt8.ofNat (0x80 ||| (wc &&& 0x3f))]

/-- `room` is `e - r`, the bytes free at `r`. -/
def my_wc_mb_utf8mb4 (wc : Nat) (room : Nat) : Int × List UInt8 :=
  if room = 0 then (MY_CS_TOOSMALL, [])
  else
    match my_wc_mb_utf8mb4_count wc with
    | none => (MY_CS_ILUNI, [])
    | some count =>
      if room < count then (MY_CS_TOOSMALLN count, [])
      else (count, my_wc_mb_utf8mb4_fill (count - 1) wc)

def my_wc_mb_utf8mb4_no_range (wc : Nat) : Int × List UInt8 :=
  match my_wc_mb_utf8mb4_count wc with
  | none => (MY_CS_ILUNI, [])
  | some count => (count, my_wc_mb_utf8mb4_fill (count - 1) wc)

def my_valid_mbcharlen_utf8mb4 (s : List UInt8) : Int :=
  match s with
  | [] => MY_CS_TOOSMALL
  | c :: _ =>
    if c < 0xf0 then my_valid_mbcharlen_utf8mb3 s
    else if c < 0xf5 then
      if s.length < 4 then MY_CS_TOOSMALL4
      else if !(IS_CONTINUATION_BYTE (s.getD 1 0) && IS_CONTINUATION_BYTE (s.getD 2 0) &&
          IS_CONTINUATION_BYTE (s.getD 3 0) && (c ≥ 0xf1 || s.getD 1 0 ≥ 0x90) &&
          (c ≤ 0xf3 || s.getD 1 0 ≤ 0x8F)) then MY_CS_ILSEQ
      else 4
    else MY_CS_ILSEQ

/-- The loop of `my_well_formed_len_utf8mb4` at `b` with `pos` characters to go: the bytes it
moves `b` by, and `*error`. -/
def my_well_formed_len_utf8mb4.loop : Nat → List UInt8 → Nat × Int
  | 0, _ => (0, 0)
  | pos + 1, b =>
    let mb_len := my_valid_mbcharlen_utf8mb4 b
    if mb_len ≤ 0 then (0, if b ≠ [] then 1 else 0)
    else
      let r := loop pos (b.drop mb_len.toNat)
      (mb_len.toNat + r.1, r.2)

/-- The length of the well-formed prefix of `[b, e)` of at most `pos` characters, and
`*error`. -/
def my_well_formed_len_utf8mb4 (b : List UInt8) (pos : Nat) : Nat × Int :=
  my_well_formed_len_utf8mb4.loop pos b

def my_mbcharlen_utf8mb4 (c : Nat) : Nat :=
  if c < 0x80 then 1
  else if c < 0xc2 then 0
  else if c < 0xe0 then 2
  else if c < 0xf0 then 3
  else if c < 0xf8 then 4
  else 0

/-! ## Bytes as numbers

Every test of a byte above is a comparison of its value, and every payload a `%`: with these
lemmas a branch of the model becomes linear arithmetic on the bytes' values. -/

theorem xor_0x80_div (n : Nat) : (n ^^^ 0x80) / 64 = n / 64 ^^^ 2 :=
  Nat.xor_div_two_pow (n := 6)

theorem xor_0x80_mod (n : Nat) : (n ^^^ 0x80) % 64 = n % 64 := by
  have h := Nat.xor_mod_two_pow (a := n) (b := 0x80) (n := 6)
  simpa using h

theorem IS_CONTINUATION_BYTE_iff (c : UInt8) : IS_CONTINUATION_BYTE c = true ↔ c.toNat / 64 = 2 := by
  have hc : c.toNat / 64 < 4 := by have := c.toNat_lt; omega
  -- the top two bits of `c ^^^ 0x80` are those of `c` with the upper one flipped
  have hq : ∀ q < 4, (q ^^^ 2 = 0 ↔ q = 2) := by decide
  simp only [IS_CONTINUATION_BYTE, decide_eq_true_eq, UInt8.lt_iff_toNat_lt, UInt8.toNat_xor]
  rw [← hq _ hc, ← xor_0x80_div]
  simp

theorem continuation_payload {c : UInt8} (h : IS_CONTINUATION_BYTE c = true) :
    (c ^^^ 0x80).toNat = c.toNat % 64 := by
  rw [IS_CONTINUATION_BYTE_iff] at h
  have hdiv : (c.toNat ^^^ 0x80) / 64 = 0 := by rw [xor_0x80_div, h]; rfl
  have hmod := xor_0x80_mod c.toNat
  simp only [UInt8.toNat_xor]
  simp only [UInt8.reduceToNat]
  omega

theorem toNat_and_mask (c m : UInt8) (k : Nat) (hm : m.toNat = 2 ^ k - 1) :
    (c &&& m).toNat = c.toNat % 2 ^ k := by
  rw [UInt8.toNat_and, hm]
  exact Nat.and_two_pow_sub_one_eq_mod _ k

theorem mb_wc_two {c s1 : UInt8} (h1 : IS_CONTINUATION_BYTE s1 = true) :
    ((c &&& 0x1f).toNat <<< 6) ||| (s1 ^^^ 0x80).toNat = c.toNat % 32 * 64 + s1.toNat % 64 := by
  rw [continuation_payload h1, toNat_and_mask c 0x1f 5 rfl, Nat.shiftLeft_eq]
  rw [Bytes.or_eq_add_of_dvd (k := 6) (Dvd.intro_left _ rfl) (by omega)]
  rfl

theorem mb_wc_three {c s1 s2 : UInt8} (h1 : IS_CONTINUATION_BYTE s1 = true)
    (h2 : IS_CONTINUATION_BYTE s2 = true) :
    ((c &&& 0x0f).toNat <<< 12) ||| ((s1 ^^^ 0x80).toNat <<< 6) ||| (s2 ^^^ 0x80).toNat =
      c.toNat % 16 * 4096 + s1.toNat % 64 * 64 + s2.toNat % 64 := by
  rw [continuation_payload h1, continuation_payload h2, toNat_and_mask c 0x0f 4 rfl,
    Nat.shiftLeft_eq, Nat.shiftLeft_eq]
  -- the fields are or-ed from the top down, each below the zero bits of those above it
  have e12 : c.toNat % 2 ^ 4 * 2 ^ 12 ||| s1.toNat % 64 * 2 ^ 6 =
      c.toNat % 2 ^ 4 * 2 ^ 12 + s1.toNat % 64 * 2 ^ 6 :=
    Bytes.or_eq_add_of_dvd (k := 12) (Dvd.intro_left _ rfl) (by omega)
  rw [e12, Bytes.or_eq_add_of_dvd (k := 6) (by norm_num; omega) (by omega)]
  rfl

theorem mb_wc_four {c s1 s2 s3 : UInt8} (h1 : IS_CONTINUATION_BYTE s1 = true)
    (h2 : IS_CONTINUATION_BYTE s2 = true) (h3 : IS_CONTINUATION_BYTE s3 = true) :
    ((c &&& 0x07).toNat <<< 18) ||| ((s1 ^^^ 0x80).toNat <<< 12) |||
        ((s2 ^^^ 0x80).toNat <<< 6) ||| (s3 ^^^ 0x80).toNat =
      c.toNat % 8 * 262144 + s1.toNat % 64 * 4096 + s2.toNat % 64 * 64 + s3.toNat % 64 := by
  rw [continuation_payload h1, continuation_payload h2, continuation_payload h3,
    toNat_and_mask c 0x07 3 rfl, Nat.shiftLeft_eq, Nat.shiftLeft_eq, Nat.shiftLeft_eq]
  have e18 : c.toNat % 2 ^ 3 * 2 ^ 18 ||| s1.toNat % 64 * 2 ^ 12 =
      c.toNat % 2 ^ 3 * 2 ^ 18 + s1.toNat % 64 * 2 ^ 12 :=
    Bytes.or_eq_add_of_dvd (k := 18) (Dvd.intro_left _ rfl) (by omega)
  have e12 : c.toNat % 2 ^ 3 * 2 ^ 18 + s1.toNat % 64 * 2 ^ 12 ||| s2.toNat % 64 * 2 ^ 6 =
      c.toNat % 2 ^ 3 * 2 ^ 18 + s1.toNat % 64 * 2 ^ 12 + s2.toNat % 64 * 2 ^ 6 :=
    Bytes.or_eq_add_of_dvd (k := 12) (by norm_num; omega) (by omega)
  rw [e18, e12, Bytes.or_eq_add_of_dvd (k := 6) (by norm_num; omega) (by omega)]
  rfl

/-! ## What the encoders write -/

theorem continuation_byte_toNat (w : Nat) :
    (UInt8.ofNat (0x80 ||| (w &&& 0x3f))).toNat = 0x80 + w % 64 := by
  have hm : w &&& 0x3f = w % 64 := Nat.and_two_pow_sub_one_eq_mod w 6
  rw [hm, Bytes.or_eq_add_of_dvd (k := 6) (by norm_num) (by omega)]
  simp only [UInt8.toNat_ofNat']
  omega

/-- The marker a case ors in sits above the shifted value. -/
theorem shiftRight_or_marker {w m k : Nat} (hm : 2 ^ k ∣ m) (hw : w / 64 < 2 ^ k) :
    (w >>> 6) ||| m = w / 64 + m := by
  rw [Nat.lor_comm, Bytes.or_eq_add_of_dvd hm (by rw [Nat.shiftRight_eq_div_pow]; exact hw),
    Nat.shiftRight_eq_div_pow, Nat.add_comm]

theorem fill_one {w : Nat} (hw : w < 4096) :
    (my_wc_mb_utf8mb4_fill 1 w).map UInt8.toNat = [0xC0 + w / 64, 0x80 + w % 64] := by
  have hlead : (w >>> 6) ||| 0xc0 = w / 64 + 0xc0 :=
    shiftRight_or_marker (k := 6) (by norm_num) (by omega)
  simp only [my_wc_mb_utf8mb4_fill, List.getD_cons_zero, hlead, List.singleton_append,
    List.map_cons, List.map_nil, continuation_byte_toNat]
  simp only [UInt8.toNat_ofNat', List.cons.injEq, and_true]
  omega

theorem fill_two {w : Nat} (hw : w < 131072) :
    (my_wc_mb_utf8mb4_fill 2 w).map UInt8.toNat =
      [0xE0 + w / 4096, 0x80 + w / 64 % 64, 0x80 + w % 64] := by
  have hnext : (w >>> 6) ||| 0x800 = w / 64 + 0x800 :=
    shiftRight_or_marker (k := 11) (by norm_num) (by omega)
  rw [my_wc_mb_utf8mb4_fill, List.map_append]
  simp only [List.getD_cons_succ, List.getD_cons_zero, hnext, fill_one (show w / 64 + 0x800 < 4096 by omega),
    List.map_cons, List.map_nil, continuation_byte_toNat, List.cons_append, List.nil_append,
    List.cons.injEq, and_true]
  omega

theorem fill_three {w : Nat} (hw : w < 4194304) :
    (my_wc_mb_utf8mb4_fill 3 w).map UInt8.toNat =
      [0xF0 + w / 262144, 0x80 + w / 4096 % 64, 0x80 + w / 64 % 64, 0x80 + w % 64] := by
  have hnext : (w >>> 6) ||| 0x10000 = w / 64 + 0x10000 :=
    shiftRight_or_marker (k := 16) (by norm_num) (by omega)
  rw [my_wc_mb_utf8mb4_fill, List.map_append]
  simp only [List.getD_cons_succ, List.getD_cons_zero, hnext,
    fill_two (show w / 64 + 0x10000 < 131072 by omega),
    List.map_cons, List.map_nil, continuation_byte_toNat, List.cons_append, List.nil_append,
    List.cons.injEq, and_true]
  omega

/-! ## The UTF-8 form of a code point -/

/-- The UTF-8 form of a code point below `0x200000`: a lead byte that gives the length and
the top bits, then six bits in each continuation byte. -/
def utf8_form (w : Nat) : List Nat :=
  if w < 0x80 then [w]
  else if w < 0x800 then [0xC0 + w / 64, 0x80 + w % 64]
  else if w < 0x10000 then [0xE0 + w / 4096, 0x80 + w / 64 % 64, 0x80 + w % 64]
  else [0xF0 + w / 262144, 0x80 + w / 4096 % 64, 0x80 + w / 64 % 64, 0x80 + w % 64]

theorem utf8_form_length_pos (w : Nat) : 0 < (utf8_form w).length := by
  unfold utf8_form
  split_ifs <;> simp

/-- The bytes a two-byte branch of the decoder accepts are the form of the value it reads. -/
theorem utf8_form_two {c s1 : Nat} (hc1 : 0xc2 ≤ c) (hc2 : c < 0xe0) (h1 : s1 / 64 = 2) :
    c % 32 * 64 + s1 % 64 < 0x110000 ∧ utf8_form (c % 32 * 64 + s1 % 64) = [c, s1] := by
  simp (disch := omega) only [utf8_form, if_pos, if_neg, List.cons.injEq, and_true]
  omega

/-- The guard `c >= 0xe1 || s[1] >= 0xa0` refuses the overlong forms. -/
theorem utf8_form_three {c s1 s2 : Nat} (hc1 : 0xe0 ≤ c) (hc2 : c < 0xf0) (h1 : s1 / 64 = 2)
    (h2 : s2 / 64 = 2) (hmin : 0xe1 ≤ c ∨ 0xa0 ≤ s1) :
    c % 16 * 4096 + s1 % 64 * 64 + s2 % 64 < 0x110000 ∧
      utf8_form (c % 16 * 4096 + s1 % 64 * 64 + s2 % 64) = [c, s1, s2] := by
  simp (disch := omega) only [utf8_form, if_pos, if_neg, List.cons.injEq, and_true]
  omega

/-- The guards of the four-byte branch refuse the overlong forms and everything above
`0x10FFFF`. -/
theorem utf8_form_four {c s1 s2 s3 : Nat} (hc1 : 0xf0 ≤ c) (hc2 : c < 0xf5) (h1 : s1 / 64 = 2)
    (h2 : s2 / 64 = 2) (h3 : s3 / 64 = 2) (hmin : 0xf1 ≤ c ∨ 0x90 ≤ s1)
    (hmax : c ≤ 0xf3 ∨ s1 ≤ 0x8f) :
    c % 8 * 262144 + s1 % 64 * 4096 + s2 % 64 * 64 + s3 % 64 < 0x110000 ∧
      utf8_form (c % 8 * 262144 + s1 % 64 * 4096 + s2 % 64 * 64 + s3 % 64) = [c, s1, s2, s3] := by
  simp (disch := omega) only [utf8_form, if_neg, List.cons.injEq, and_true]
  omega

/-- The ranges of the lead byte on which the decoders and the length functions branch. -/
theorem lead_byte_ranges (c : UInt8) :
    c.toNat < 0x80 ∨ (0x80 ≤ c.toNat ∧ c.toNat < 0xc2) ∨ (0xc2 ≤ c.toNat ∧ c.toNat < 0xe0) ∨
      (0xe0 ≤ c.toNat ∧ c.toNat < 0xf0) ∨ (0xf0 ≤ c.toNat ∧ c.toNat < 0xf5) ∨
      0xf5 ≤ c.toNat := by
  have := c.toNat_lt
  omega

/-! ## What the decoder reads

One lemma for each length the decoder accepts, from the bytes' values. -/

theorem my_mb_wc_utf8mb4_one {c : UInt8} (rest : List UInt8) (hc : c.toNat < 0x80) :
    my_mb_wc_utf8mb4 (c :: rest) = (1, some c.toNat) := by
  simp (disch := omega) only [my_mb_wc_utf8mb4, UInt8.lt_iff_toNat_lt, UInt8.reduceToNat, if_pos]

theorem my_mb_wc_utf8mb4_two {c s1 : UInt8} (rest : List UInt8) (hc1 : 0xc2 ≤ c.toNat)
    (hc2 : c.toNat < 0xe0) (h1 : s1.toNat / 64 = 2) :
    my_mb_wc_utf8mb4 (c :: s1 :: rest) = (2, some (c.toNat % 32 * 64 + s1.toNat % 64)) := by
  have hs1 : IS_CONTINUATION_BYTE s1 = true := (IS_CONTINUATION_BYTE_iff s1).2 h1
  simp (disch := omega) only [my_mb_wc_utf8mb4, List.getD_cons_succ, List.getD_cons_zero,
    List.length_cons, UInt8.lt_iff_toNat_lt, UInt8.reduceToNat, if_pos, if_neg, hs1, Bool.not_true,
    Bool.false_eq_true, ↓reduceIte, mb_wc_two hs1]

theorem my_mb_wc_utf8mb4_three {c s1 s2 : UInt8} (rest : List UInt8) (hc1 : 0xe0 ≤ c.toNat)
    (hc2 : c.toNat < 0xf0) (h1 : s1.toNat / 64 = 2) (h2 : s2.toNat / 64 = 2)
    (hmin : 0xe1 ≤ c.toNat ∨ 0xa0 ≤ s1.toNat) :
    my_mb_wc_utf8mb4 (c :: s1 :: s2 :: rest) =
      (3, some (c.toNat % 16 * 4096 + s1.toNat % 64 * 64 + s2.toNat % 64)) := by
  have hs1 : IS_CONTINUATION_BYTE s1 = true := (IS_CONTINUATION_BYTE_iff s1).2 h1
  have hs2 : IS_CONTINUATION_BYTE s2 = true := (IS_CONTINUATION_BYTE_iff s2).2 h2
  simp (disch := omega) only [my_mb_wc_utf8mb4, List.getD_cons_succ, List.getD_cons_zero,
    List.length_cons, UInt8.lt_iff_toNat_lt, UInt8.le_iff_toNat_le, UInt8.reduceToNat, if_pos,
    if_neg, hs1, hs2, Bool.true_and, Bool.not_eq_true', Bool.or_eq_false_iff,
    decide_eq_false_iff_not, ge_iff_le, mb_wc_three hs1 hs2]

theorem my_mb_wc_utf8mb4_four {c s1 s2 s3 : UInt8} (rest : List UInt8) (hc1 : 0xf0 ≤ c.toNat)
    (hc2 : c.toNat < 0xf5) (h1 : s1.toNat / 64 = 2) (h2 : s2.toNat / 64 = 2)
    (h3 : s3.toNat / 64 = 2) (hmin : 0xf1 ≤ c.toNat ∨ 0x90 ≤ s1.toNat)
    (hmax : c.toNat ≤ 0xf3 ∨ s1.toNat ≤ 0x8f) :
    my_mb_wc_utf8mb4 (c :: s1 :: s2 :: s3 :: rest) =
      (4, some (c.toNat % 8 * 262144 + s1.toNat % 64 * 4096 + s2.toNat % 64 * 64 +
        s3.toNat % 64)) := by
  have hs1 : IS_CONTINUATION_BYTE s1 = true := (IS_CONTINUATION_BYTE_iff s1).2 h1
  have hs2 : IS_CONTINUATION_BYTE s2 = true := (IS_CONTINUATION_BYTE_iff s2).2 h2
  have hs3 : IS_CONTINUATION_BYTE s3 = true := (IS_CONTINUATION_BYTE_iff s3).2 h3
  simp (disch := omega) only [my_mb_wc_utf8mb4, List.getD_cons_succ, List.getD_cons_zero,
    List.length_cons, UInt8.lt_iff_toNat_lt, UInt8.le_iff_toNat_le, UInt8.reduceToNat, if_pos,
    if_neg, hs1, hs2, hs3, Bool.true_and, Bool.not_eq_true', Bool.and_eq_false_iff,
    Bool.or_eq_false_iff, decide_eq_false_iff_not, ge_iff_le, mb_wc_four hs1 hs2 hs3]

/-! ## The decoder reads exactly the UTF-8 forms -/

/-- Whatever follows a code point's form, the decoder reads the code point. -/
theorem my_mb_wc_utf8mb4_of_form {s : List UInt8} {w : Nat} (hw : w < 0x110000)
    (hs : utf8_form w <+: s.map UInt8.toNat) :
    my_mb_wc_utf8mb4 s = (((utf8_form w).length : Int), some w) := by
  unfold utf8_form at hs ⊢
  split_ifs at hs ⊢ with h1 h2 h3
  case pos =>
    rcases s with _ | ⟨c, rest⟩ <;>
      simp only [List.map_nil, List.map_cons, List.cons_prefix_cons, List.prefix_nil,
        List.nil_prefix, and_true, reduceCtorEq] at hs
    rw [my_mb_wc_utf8mb4_one rest (by omega), hs]
    rfl
  case pos =>
    rcases s with _ | ⟨c, _ | ⟨s1, rest⟩⟩ <;>
      simp only [List.map_nil, List.map_cons, List.cons_prefix_cons, List.prefix_nil,
        List.nil_prefix, and_true, reduceCtorEq, and_false] at hs
    rw [my_mb_wc_utf8mb4_two rest (by omega) (by omega) (by omega)]
    simp only [List.length_cons, List.length_nil, Prod.mk.injEq, Option.some.injEq]
    omega
  case pos =>
    rcases s with _ | ⟨c, _ | ⟨s1, _ | ⟨s2, rest⟩⟩⟩ <;>
      simp only [List.map_nil, List.map_cons, List.cons_prefix_cons, List.prefix_nil,
        List.nil_prefix, and_true, reduceCtorEq, and_false] at hs
    rw [my_mb_wc_utf8mb4_three rest (by omega) (by omega) (by omega) (by omega) (by omega)]
    simp only [List.length_cons, List.length_nil, Prod.mk.injEq, Option.some.injEq]
    omega
  case neg =>
    rcases s with _ | ⟨c, _ | ⟨s1, _ | ⟨s2, _ | ⟨s3, rest⟩⟩⟩⟩ <;>
      simp only [List.map_nil, List.map_cons, List.cons_prefix_cons, List.prefix_nil,
        List.nil_prefix, and_true, reduceCtorEq, and_false] at hs
    rw [my_mb_wc_utf8mb4_four rest (by omega) (by omega) (by omega) (by omega) (by omega)
      (by omega) (by omega)]
    simp only [List.length_cons, List.length_nil, Prod.mk.injEq, Option.some.injEq]
    omega

/-- Everything the decoder can return: a refusal, a request for more bytes than the buffer
holds, or a code point below `0x110000` whose form starts the buffer. -/
theorem my_mb_wc_utf8mb4_cases (s : List UInt8) :
    my_mb_wc_utf8mb4 s = (MY_CS_ILSEQ, none) ∨
      (∃ k, 1 ≤ k ∧ k ≤ 4 ∧ s.length < k ∧ my_mb_wc_utf8mb4 s = (MY_CS_TOOSMALLN k, none)) ∨
      ∃ w, w < 0x110000 ∧ utf8_form w <+: s.map UInt8.toNat ∧
        my_mb_wc_utf8mb4 s = (((utf8_form w).length : Int), some w) := by
  rcases s with _ | ⟨c, t⟩
  · exact .inr (.inl ⟨1, le_rfl, by norm_num, by simp, rfl⟩)
  -- the decoder dispatches on the range of the lead byte
  rcases lead_byte_ranges c with hc | hc | hc | hc | hc | hc <;>
    simp (disch := omega) only [my_mb_wc_utf8mb4, UInt8.lt_iff_toNat_lt, UInt8.le_iff_toNat_le,
      UInt8.reduceToNat, ge_iff_le, if_pos, if_neg]
  case inl =>
    refine .inr (.inr ⟨c.toNat, by omega, ?_, ?_⟩)
    · simp (disch := omega) only [utf8_form, if_pos, List.map_cons, List.cons_prefix_cons,
        List.nil_prefix, and_true]
    · simp (disch := omega) only [utf8_form, if_pos]
      rfl
  case inr.inl => exact .inl trivial
  case inr.inr.inl =>
    rcases t with _ | ⟨s1, rest⟩
    · exact .inr (.inl ⟨2, by norm_num, by norm_num, by simp, by simp; rfl⟩)
    simp only [List.getD_cons_succ, List.getD_cons_zero, List.length_cons]
    split_ifs with hlen hbad
    · omega
    · exact .inl rfl
    have hs1 : IS_CONTINUATION_BYTE s1 = true := by simpa using hbad
    obtain ⟨hlt, hform⟩ := utf8_form_two hc.1 hc.2 ((IS_CONTINUATION_BYTE_iff s1).1 hs1)
    refine .inr (.inr ⟨_, hlt, by rw [hform]; simp, ?_⟩)
    rw [mb_wc_two hs1, hform]
    rfl
  case inr.inr.inr.inl =>
    rcases t with _ | ⟨s1, _ | ⟨s2, rest⟩⟩
    · exact .inr (.inl ⟨3, by norm_num, by norm_num, by simp, by simp; rfl⟩)
    · exact .inr (.inl ⟨3, by norm_num, by norm_num, by simp, by simp; rfl⟩)
    simp only [List.getD_cons_succ, List.getD_cons_zero, List.length_cons]
    split_ifs with hlen hbad
    · omega
    · exact .inl rfl
    simp only [Bool.not_eq_true', Bool.not_eq_false, Bool.and_eq_true, Bool.or_eq_true,
      decide_eq_true_eq] at hbad
    obtain ⟨⟨hs1, hs2⟩, hmin⟩ := hbad
    obtain ⟨hlt, hform⟩ := utf8_form_three hc.1 hc.2 ((IS_CONTINUATION_BYTE_iff s1).1 hs1)
      ((IS_CONTINUATION_BYTE_iff s2).1 hs2) hmin
    refine .inr (.inr ⟨_, hlt, by rw [hform]; simp, ?_⟩)
    rw [mb_wc_three hs1 hs2, hform]
    rfl
  case inr.inr.inr.inr.inl =>
    rcases t with _ | ⟨s1, _ | ⟨s2, _ | ⟨s3, rest⟩⟩⟩
    · exact .inr (.inl ⟨4, by norm_num, le_rfl, by simp, by simp; rfl⟩)
    · exact .inr (.inl ⟨4, by norm_num, le_rfl, by simp, by simp; rfl⟩)
    · exact .inr (.inl ⟨4, by norm_num, le_rfl, by simp, by simp; rfl⟩)
    simp only [List.getD_cons_succ, List.getD_cons_zero, List.length_cons]
    split_ifs with hlen hbad
    · omega
    · exact .inl rfl
    simp only [Bool.not_eq_true', Bool.not_eq_false, Bool.and_eq_true, Bool.or_eq_true,
      decide_eq_true_eq] at hbad
    obtain ⟨⟨⟨⟨hs1, hs2⟩, hs3⟩, hmin⟩, hmax⟩ := hbad
    obtain ⟨hlt, hform⟩ := utf8_form_four hc.1 hc.2 ((IS_CONTINUATION_BYTE_iff s1).1 hs1)
      ((IS_CONTINUATION_BYTE_iff s2).1 hs2) ((IS_CONTINUATION_BYTE_iff s3).1 hs3) hmin hmax
    refine .inr (.inr ⟨_, hlt, by rw [hform]; simp, ?_⟩)
    rw [mb_wc_four hs1 hs2 hs3, hform]
    rfl
  case inr.inr.inr.inr.inr => exact .inl trivial

theorem my_mb_wc_utf8mb4_eq_some {s : List UInt8} {n : Int} {w : Nat} :
    my_mb_wc_utf8mb4 s = (n, some w) ↔
      w < 0x110000 ∧ n = (utf8_form w).length ∧ utf8_form w <+: s.map UInt8.toNat := by
  constructor
  · intro h
    rcases my_mb_wc_utf8mb4_cases s with hr | ⟨k, -, -, -, hr⟩ | ⟨w', hw, hs, hr⟩ <;>
      rw [hr] at h
    · simp at h
    · simp at h
    · simp only [Prod.mk.injEq, Option.some.injEq] at h
      obtain ⟨rfl, rfl⟩ := h
      exact ⟨hw, rfl, hs⟩
  · rintro ⟨hw, rfl, hs⟩
    exact my_mb_wc_utf8mb4_of_form hw hs

/-- The decoder writes `*pwc` exactly when it returns a positive length. -/
theorem my_mb_wc_utf8mb4_snd_eq_none (s : List UInt8) :
    (my_mb_wc_utf8mb4 s).2 = none ↔ (my_mb_wc_utf8mb4 s).1 ≤ 0 := by
  rcases my_mb_wc_utf8mb4_cases s with hr | ⟨k, -, -, -, hr⟩ | ⟨w, -, -, hr⟩ <;> rw [hr]
  · simp [MY_CS_ILSEQ]
  · simp only [MY_CS_TOOSMALLN, true_iff]
    omega
  · have := utf8_form_length_pos w
    simp only [reduceCtorEq, false_iff, not_le]
    omega

/-- With four bytes in the buffer the decoder never asks for more: a failure is `MY_CS_ILSEQ`. -/
theorem my_mb_wc_utf8mb4_of_fst_nonpos {s : List UInt8} (h : (my_mb_wc_utf8mb4 s).1 ≤ 0)
    (hs : 4 ≤ s.length) : my_mb_wc_utf8mb4 s = (MY_CS_ILSEQ, none) := by
  rcases my_mb_wc_utf8mb4_cases s with hr | ⟨k, -, hk, hlt, -⟩ | ⟨w, -, -, hr⟩
  · exact hr
  · omega
  · have := utf8_form_length_pos w
    rw [hr] at h
    simp only at h
    omega

/-- `my_valid_mbcharlen_utf8mb4` returns what the decoder returns, without decoding. -/
theorem my_mb_wc_utf8mb4_fst (s : List UInt8) :
    (my_mb_wc_utf8mb4 s).1 = my_valid_mbcharlen_utf8mb4 s := by
  rcases s with _ | ⟨c, t⟩
  · rfl
  -- both resolve the lead byte's range alike, and then make the same tests
  rcases lead_byte_ranges c with hc | hc | hc | hc | hc | hc <;>
    simp (disch := omega) only [my_mb_wc_utf8mb4, my_valid_mbcharlen_utf8mb4,
      my_valid_mbcharlen_utf8mb3, List.getD_cons_zero, UInt8.lt_iff_toNat_lt, UInt8.reduceToNat,
      if_pos, if_neg] <;>
    split_ifs <;> rfl

/-! ## The encoders write the UTF-8 forms -/

theorem my_wc_mb_utf8mb4_count_eq {wc : Nat} (h : wc < 0x200000) :
    my_wc_mb_utf8mb4_count wc = some (utf8_form wc).length := by
  unfold my_wc_mb_utf8mb4_count utf8_form
  split_ifs <;> rfl

theorem my_wc_mb_utf8mb4_count_eq_none {wc : Nat} (h : 0x200000 ≤ wc) :
    my_wc_mb_utf8mb4_count wc = none := by
  simp (disch := omega) only [my_wc_mb_utf8mb4_count, if_neg]

theorem fill_form {wc : Nat} (h : wc < 0x200000) :
    (my_wc_mb_utf8mb4_fill ((utf8_form wc).length - 1) wc).map UInt8.toNat = utf8_form wc := by
  unfold utf8_form
  split_ifs with h1 h2 h3
  · simp only [List.length_cons, List.length_nil, Nat.sub_self, my_wc_mb_utf8mb4_fill,
      List.map_cons, List.map_nil, UInt8.toNat_ofNat', List.cons.injEq, and_true]
    omega
  · exact fill_one (by omega)
  · exact fill_two (by omega)
  · exact fill_three (by omega)

/-- Below `0x200000` the encoder without range checks writes the code point's form. -/
theorem my_wc_mb_utf8mb4_no_range_form {wc : Nat} (h : wc < 0x200000) :
    (my_wc_mb_utf8mb4_no_range wc).1 = (utf8_form wc).length ∧
      (my_wc_mb_utf8mb4_no_range wc).2.map UInt8.toNat = utf8_form wc := by
  rw [my_wc_mb_utf8mb4_no_range, my_wc_mb_utf8mb4_count_eq h]
  exact ⟨rfl, fill_form h⟩

/-- With room for the form, the checked encoder is its twin. -/
theorem my_wc_mb_utf8mb4_of_room {wc : Nat} {room : Nat} (h : (utf8_form wc).length ≤ room) :
    my_wc_mb_utf8mb4 wc room = my_wc_mb_utf8mb4_no_range wc := by
  have hroom : room ≠ 0 := by have := utf8_form_length_pos wc; omega
  simp only [my_wc_mb_utf8mb4, my_wc_mb_utf8mb4_no_range, if_neg hroom]
  rcases Nat.lt_or_ge wc 0x200000 with hwc | hwc
  · simp only [my_wc_mb_utf8mb4_count_eq hwc, if_neg (Nat.not_lt.2 h)]
  · simp only [my_wc_mb_utf8mb4_count_eq_none hwc]

/-! ## The twin decoder -/

/-- On a buffer of four bytes or more the twin without range checks is the decoder. -/
theorem my_mb_wc_utf8mb4_no_range_of_length {s : List UInt8} (h : 4 ≤ s.length) :
    my_mb_wc_utf8mb4_no_range s = my_mb_wc_utf8mb4 s := by
  rcases s with _ | ⟨c, t⟩
  · simp at h
  · simp only [List.length_cons] at h
    simp (disch := omega) only [my_mb_wc_utf8mb4_no_range, my_mb_wc_utf8mb4, List.getD_cons_zero,
      List.length_cons, if_neg]

/-- The twin reads past the end of a NUL-terminated string only after a continuation byte,
where the NUL stops it: as if zero bytes followed. -/
theorem my_mb_wc_utf8mb4_no_range_append_zeros (s : List UInt8) :
    my_mb_wc_utf8mb4_no_range (s ++ List.replicate 4 0) = my_mb_wc_utf8mb4_no_range s := by
  have hg : ∀ i, (s ++ List.replicate 4 0).getD i 0 = s.getD i 0 := by
    intro i
    rcases Nat.lt_or_ge i s.length with hi | hi
    · exact List.getD_append _ _ _ _ hi
    · rw [List.getD_append_right _ _ _ _ hi, List.getD_eq_default _ _ hi,
        List.getD_eq_getElem?_getD, List.getElem?_replicate]
      split <;> rfl
  simp only [my_mb_wc_utf8mb4_no_range, hg]

/-- What follows from the missing range checks: the twin decodes the string with zero bytes
after it. -/
theorem my_mb_wc_utf8mb4_no_range_eq (s : List UInt8) :
    my_mb_wc_utf8mb4_no_range s = my_mb_wc_utf8mb4 (s ++ List.replicate 4 0) := by
  rw [← my_mb_wc_utf8mb4_no_range_append_zeros s, my_mb_wc_utf8mb4_no_range_of_length (by simp)]

/-! ## Agreement of the character functions -/

theorem utf8_form_prefix_append {bs : List UInt8} {w : Nat} (h : bs.map UInt8.toNat = utf8_form w)
    (rest : List UInt8) : utf8_form w <+: (bs ++ rest).map UInt8.toNat := by
  rw [List.map_append, h]
  exact List.prefix_append _ _

/-- Both encoders write a code point below `0x110000` into a buffer with room for it, and
both decoders read it back from the bytes written, whatever follows them. -/
theorem my_wc_mb_utf8mb4_round_trip {wc room : Nat} (hwc : wc < 0x110000)
    (hroom : (utf8_form wc).length ≤ room) (rest : List UInt8) :
    my_wc_mb_utf8mb4_no_range wc = my_wc_mb_utf8mb4 wc room ∧
      (my_wc_mb_utf8mb4 wc room).1 = (utf8_form wc).length ∧
      my_mb_wc_utf8mb4 ((my_wc_mb_utf8mb4 wc room).2 ++ rest) =
        ((my_wc_mb_utf8mb4 wc room).1, some wc) ∧
      my_mb_wc_utf8mb4_no_range ((my_wc_mb_utf8mb4 wc room).2 ++ rest) =
        ((my_wc_mb_utf8mb4 wc room).1, some wc) := by
  rw [my_wc_mb_utf8mb4_of_room hroom]
  obtain ⟨hlen, hbytes⟩ := my_wc_mb_utf8mb4_no_range_form (show wc < 0x200000 by omega)
  refine ⟨rfl, hlen, ?_, ?_⟩
  · rw [hlen]
    exact my_mb_wc_utf8mb4_of_form hwc (utf8_form_prefix_append hbytes rest)
  · rw [my_mb_wc_utf8mb4_no_range_eq, List.append_assoc, hlen]
    exact my_mb_wc_utf8mb4_of_form hwc (utf8_form_prefix_append hbytes _)

/-- Re-encoding a decoded code point writes exactly the bytes the decoder read. -/
theorem my_wc_mb_utf8mb4_of_mb_wc {s : List UInt8} {n : Int} {w : Nat}
    (h : my_mb_wc_utf8mb4 s = (n, some w)) :
    my_wc_mb_utf8mb4_no_range w = (n, s.take n.toNat) := by
  obtain ⟨hw, rfl, hs⟩ := my_mb_wc_utf8mb4_eq_some.1 h
  obtain ⟨hlen, hbytes⟩ := my_wc_mb_utf8mb4_no_range_form (show w < 0x200000 by omega)
  have htake : (s.take (utf8_form w).length).map UInt8.toNat = utf8_form w := by
    rw [List.map_take]
    exact (List.prefix_iff_eq_take.1 hs).symm
  have hinj : Function.Injective (List.map UInt8.toNat) :=
    List.map_injective_iff.2 fun _ _ h => UInt8.toNat_inj.1 h
  rw [Int.toNat_natCast]
  exact Prod.ext hlen (hinj (hbytes.trans htake.symm))

/-- The lead byte alone gives the length the decoder reads. -/
theorem my_mbcharlen_utf8mb4_of_mb_wc {s : List UInt8} (h : 0 < (my_mb_wc_utf8mb4 s).1) :
    (my_mbcharlen_utf8mb4 (s.getD 0 0).toNat : Int) = (my_mb_wc_utf8mb4 s).1 := by
  rcases hr : my_mb_wc_utf8mb4 s with ⟨n, _ | w⟩
  · have hle := (my_mb_wc_utf8mb4_snd_eq_none s).1 (by rw [hr])
    rw [hr] at hle h
    exact absurd hle (not_le.2 h)
  obtain ⟨hw, rfl, hs⟩ := my_mb_wc_utf8mb4_eq_some.1 hr
  rcases s with _ | ⟨c, t⟩
  · have := utf8_form_length_pos w
    simp_all
  · simp only [List.getD_cons_zero, List.map_cons] at hs ⊢
    unfold utf8_form at hs ⊢
    split_ifs at hs ⊢ <;>
      simp only [List.cons_prefix_cons] at hs <;>
      simp (disch := omega) only [hs.1, my_mbcharlen_utf8mb4, if_pos, if_neg, List.length_cons,
        List.length_nil]

/-- **The utf8mb4 encoders and decoders are inverse to each other.** Both encoders write a
code point below `0x110000` into a buffer with room for it, and both decoders read it back
from the bytes written, whatever follows them; conversely, a character the decoder reads is
written back byte for byte, and its lead byte alone gives its length. -/
theorem utf8mb4_encode_decode_inverse :
    (∀ {wc room : Nat}, wc < 0x110000 → (utf8_form wc).length ≤ room → ∀ rest : List UInt8,
      my_wc_mb_utf8mb4_no_range wc = my_wc_mb_utf8mb4 wc room ∧
        (my_wc_mb_utf8mb4 wc room).1 = (utf8_form wc).length ∧
        my_mb_wc_utf8mb4 ((my_wc_mb_utf8mb4 wc room).2 ++ rest) =
          ((my_wc_mb_utf8mb4 wc room).1, some wc) ∧
        my_mb_wc_utf8mb4_no_range ((my_wc_mb_utf8mb4 wc room).2 ++ rest) =
          ((my_wc_mb_utf8mb4 wc room).1, some wc)) ∧
    (∀ {s : List UInt8} {n : Int} {w : Nat}, my_mb_wc_utf8mb4 s = (n, some w) →
      my_wc_mb_utf8mb4_no_range w = (n, s.take n.toNat) ∧
        (my_mbcharlen_utf8mb4 (s.getD 0 0).toNat : Int) = n) := by
  refine ⟨fun hwc hroom rest => my_wc_mb_utf8mb4_round_trip hwc hroom rest, fun {s n w} h => ?_⟩
  -- the decoder read a character, so it returned a positive length
  have hpos : 0 < (my_mb_wc_utf8mb4 s).1 := by
    obtain ⟨-, hn, -⟩ := my_mb_wc_utf8mb4_eq_some.1 h
    rw [h, hn]
    show (0 : Int) < (utf8_form w).length
    exact_mod_cast utf8_form_length_pos w
  refine ⟨my_wc_mb_utf8mb4_of_mb_wc h, ?_⟩
  rw [my_mbcharlen_utf8mb4_of_mb_wc hpos, h]

/-- The euro sign, `0x20AC`, is written as the three bytes `E2 82 AC` and read back. -/
theorem utf8mb4_encode_decode_inverse_euro :
    my_mb_wc_utf8mb4 ((my_wc_mb_utf8mb4 0x20AC 3).2 ++ []) =
        ((my_wc_mb_utf8mb4 0x20AC 3).1, some 0x20AC) ∧
      my_wc_mb_utf8mb4_no_range 0x20AC = (3, [0xE2, 0x82, 0xAC].take (3 : Int).toNat) :=
  ⟨(utf8mb4_encode_decode_inverse.1 (by norm_num) (by decide) []).2.2.1,
    (utf8mb4_encode_decode_inverse.2 (s := [0xE2, 0x82, 0xAC]) (by decide)).1⟩

/-! ## Code points beyond Unicode -/

/-- A buffer that starts with the form of a code point from `0x110000` on is refused: its
lead byte is `0xf4` with a second byte above `0x8f`, or above `0xf4`. -/
theorem my_mb_wc_utf8mb4_of_form_above {s : List UInt8} {wc : Nat} (h1 : 0x110000 ≤ wc)
    (h2 : wc < 0x200000) (hs : utf8_form wc <+: s.map UInt8.toNat) :
    my_mb_wc_utf8mb4 s = (MY_CS_ILSEQ, none) := by
  have hform : utf8_form wc =
      [0xF0 + wc / 262144, 0x80 + wc / 4096 % 64, 0x80 + wc / 64 % 64, 0x80 + wc % 64] := by
    simp (disch := omega) only [utf8_form, if_neg]
  rw [hform] at hs
  have hlen : 4 ≤ s.length := by
    simpa using hs.length_le
  apply my_mb_wc_utf8mb4_of_fst_nonpos _ hlen
  -- a code point it read would be below `0x110000` with the same two first bytes
  by_contra hpos
  rcases hr : my_mb_wc_utf8mb4 s with ⟨n, _ | w⟩
  · have hle := (my_mb_wc_utf8mb4_snd_eq_none s).1 (by rw [hr])
    exact hpos hle
  obtain ⟨hw, -, hws⟩ := my_mb_wc_utf8mb4_eq_some.1 hr
  rcases s with _ | ⟨c, _ | ⟨s1, rest⟩⟩ <;>
    simp only [List.map_cons, List.map_nil, List.cons_prefix_cons, List.prefix_nil,
      reduceCtorEq, and_false] at hs
  simp only [List.map_cons] at hws
  unfold utf8_form at hws
  split_ifs at hws <;>
    simp only [List.cons_prefix_cons] at hws <;>
    omega

/-- Both encoders write four bytes for every code point from `0x110000` to `0x1FFFFF`, and
neither decoder nor `my_valid_mbcharlen_utf8mb4` accepts them. -/
theorem my_wc_mb_utf8mb4_beyond_unicode {wc room : Nat} (h1 : 0x110000 ≤ wc) (h2 : wc < 0x200000)
    (hroom : 4 ≤ room) (rest : List UInt8) :
    (my_wc_mb_utf8mb4 wc room).1 = 4 ∧
      my_wc_mb_utf8mb4_no_range wc = my_wc_mb_utf8mb4 wc room ∧
      my_mb_wc_utf8mb4 ((my_wc_mb_utf8mb4 wc room).2 ++ rest) = (MY_CS_ILSEQ, none) ∧
      my_mb_wc_utf8mb4_no_range ((my_wc_mb_utf8mb4 wc room).2 ++ rest) = (MY_CS_ILSEQ, none) ∧
      my_valid_mbcharlen_utf8mb4 ((my_wc_mb_utf8mb4 wc room).2 ++ rest) = MY_CS_ILSEQ := by
  have hlen : (utf8_form wc).length = 4 := by
    simp (disch := omega) only [utf8_form, if_neg, List.length_cons, List.length_nil]
  rw [my_wc_mb_utf8mb4_of_room (by omega)]
  obtain ⟨hcount, hbytes⟩ := my_wc_mb_utf8mb4_no_range_form (show wc < 0x200000 by omega)
  have hdec := my_mb_wc_utf8mb4_of_form_above h1 h2 (utf8_form_prefix_append hbytes rest)
  refine ⟨by rw [hcount, hlen]; rfl, rfl, hdec, ?_, ?_⟩
  · rw [my_mb_wc_utf8mb4_no_range_eq, List.append_assoc]
    exact my_mb_wc_utf8mb4_of_form_above h1 h2 (utf8_form_prefix_append hbytes _)
  · rw [← my_mb_wc_utf8mb4_fst, hdec]

theorem my_wc_mb_utf8mb4_beyond_unicode_first :
    (my_wc_mb_utf8mb4 0x110000 4).1 = 4 ∧
      my_wc_mb_utf8mb4_no_range 0x110000 = my_wc_mb_utf8mb4 0x110000 4 ∧
      my_mb_wc_utf8mb4 ((my_wc_mb_utf8mb4 0x110000 4).2 ++ []) = (MY_CS_ILSEQ, none) ∧
      my_mb_wc_utf8mb4_no_range ((my_wc_mb_utf8mb4 0x110000 4).2 ++ []) = (MY_CS_ILSEQ, none) ∧
      my_valid_mbcharlen_utf8mb4 ((my_wc_mb_utf8mb4 0x110000 4).2 ++ []) = MY_CS_ILSEQ :=
  my_wc_mb_utf8mb4_beyond_unicode (by norm_num) (by norm_num) le_rfl []

example : (my_wc_mb_utf8mb4 0x110000 4).2 = [0xF4, 0x90, 0x80, 0x80] := by decide

/-! ## The well-formed prefix -/

/-- `Decodes s k`: the decoder, called again after each character it reads, reads all of `s`
in `k` characters. -/
inductive Decodes : List UInt8 → Nat → Prop
  | nil : Decodes [] 0
  | cons {s : List UInt8} {n : Int} {w k : Nat} :
      my_mb_wc_utf8mb4 s = (n, some w) → Decodes (s.drop n.toNat) k → Decodes s (k + 1)

/-- The decoder reads a character from the bytes it takes, whatever follows them. -/
theorem my_mb_wc_utf8mb4_take {s : List UInt8} {n : Int} {w m : Nat}
    (h : my_mb_wc_utf8mb4 s = (n, some w)) (hm : n.toNat ≤ m) :
    my_mb_wc_utf8mb4 (s.take m) = (n, some w) := by
  obtain ⟨hw, rfl, hs⟩ := my_mb_wc_utf8mb4_eq_some.1 h
  rw [Int.toNat_natCast] at hm
  refine my_mb_wc_utf8mb4_eq_some.2 ⟨hw, rfl, ?_⟩
  rw [List.map_take]
  exact List.prefix_take_iff.2 ⟨hs, hm⟩

theorem my_mb_wc_utf8mb4_of_take {s : List UInt8} {n : Int} {w m : Nat}
    (h : my_mb_wc_utf8mb4 (s.take m) = (n, some w)) : my_mb_wc_utf8mb4 s = (n, some w) := by
  obtain ⟨hw, rfl, hs⟩ := my_mb_wc_utf8mb4_eq_some.1 h
  refine my_mb_wc_utf8mb4_eq_some.2 ⟨hw, rfl, hs.trans ?_⟩
  rw [List.map_take]
  exact List.take_prefix _ _

theorem my_mb_wc_utf8mb4_length_le {s : List UInt8} {n : Int} {w : Nat}
    (h : my_mb_wc_utf8mb4 s = (n, some w)) : 0 < n ∧ n.toNat ≤ s.length := by
  obtain ⟨-, rfl, hs⟩ := my_mb_wc_utf8mb4_eq_some.1 h
  have hlen := hs.length_le
  rw [List.length_map] at hlen
  exact ⟨by exact_mod_cast utf8_form_length_pos w, by rwa [Int.toNat_natCast]⟩

/-- One pass of the loop: it stops where `my_valid_mbcharlen_utf8mb4`, that is the decoder,
returns no positive length, and otherwise moves past the character read. -/
theorem my_well_formed_len_utf8mb4.loop_succ (pos : Nat) (b : List UInt8) :
    my_well_formed_len_utf8mb4.loop (pos + 1) b =
      if (my_mb_wc_utf8mb4 b).1 ≤ 0 then (0, if b ≠ [] then 1 else 0)
      else ((my_mb_wc_utf8mb4 b).1.toNat +
          (my_well_formed_len_utf8mb4.loop pos (b.drop (my_mb_wc_utf8mb4 b).1.toNat)).1,
        (my_well_formed_len_utf8mb4.loop pos (b.drop (my_mb_wc_utf8mb4 b).1.toNat)).2) := by
  rw [my_mb_wc_utf8mb4_fst]
  rfl

/-- A prefix that decodes and is not empty starts with the character the decoder reads from
the whole buffer. -/
theorem Decodes.take_first {s : List UInt8} {L k : Nat} (hd : Decodes (s.take L) k)
    (hL0 : 0 < L) (hL : L ≤ s.length) :
    ∃ n w k', my_mb_wc_utf8mb4 s = (n, some w) ∧ k = k' + 1 ∧
      Decodes ((s.drop n.toNat).take (L - n.toNat)) k' := by
  generalize ht : s.take L = t at hd
  cases hd with
  | nil =>
    rw [List.take_eq_nil_iff] at ht
    rcases ht with h | rfl
    · omega
    · simp at hL
      omega
  | cons hdec hrest =>
    subst ht
    rw [List.drop_take] at hrest
    exact ⟨_, _, _, my_mb_wc_utf8mb4_of_take hdec, rfl, hrest⟩

/-- `my_well_formed_len_utf8mb4` returns the length of the longest prefix of at most `pos`
characters that the decoder reads without error. -/
theorem my_well_formed_len_utf8mb4_longest (s : List UInt8) (pos : Nat) :
    (my_well_formed_len_utf8mb4 s pos).1 ≤ s.length ∧
      (∃ k ≤ pos, Decodes (s.take (my_well_formed_len_utf8mb4 s pos).1) k) ∧
      ∀ L k, L ≤ s.length → k ≤ pos → Decodes (s.take L) k →
        L ≤ (my_well_formed_len_utf8mb4 s pos).1 := by
  unfold my_well_formed_len_utf8mb4
  -- induction on the characters left to read, for every rest of the buffer
  induction pos generalizing s with
  | zero =>
    refine ⟨Nat.zero_le _, ⟨0, le_rfl, Decodes.nil⟩, ?_⟩
    intro L k hL hk hd
    show L ≤ 0
    by_contra hL0
    obtain ⟨-, -, k', -, hk', -⟩ := hd.take_first (by omega) hL
    omega
  | succ pos ih =>
    rw [my_well_formed_len_utf8mb4.loop_succ]
    rcases hr : my_mb_wc_utf8mb4 s with ⟨n, _ | w⟩
    · -- the decoder refuses the first character: only the empty prefix decodes
      have hle : n ≤ 0 := by
        have h := (my_mb_wc_utf8mb4_snd_eq_none s).1 (by rw [hr])
        rwa [hr] at h
      simp only [hle, if_true]
      refine ⟨Nat.zero_le _, ⟨0, Nat.zero_le _, Decodes.nil⟩, ?_⟩
      intro L k hL hk hd
      show L ≤ 0
      by_contra hL0
      obtain ⟨n', w', k', hdec, -, -⟩ := hd.take_first (by omega) hL
      rw [hr] at hdec
      simp at hdec
    · -- it reads a character of `n` bytes; the rest is the loop on what follows
      obtain ⟨hn, hnlen⟩ := my_mb_wc_utf8mb4_length_le hr
      simp only [not_le.2 hn, if_false]
      obtain ⟨ih1, ⟨k, hk, hd⟩, ih3⟩ := ih (s.drop n.toNat)
      rw [List.length_drop] at ih1
      refine ⟨by omega, ⟨k + 1, by omega, ?_⟩, ?_⟩
      · refine Decodes.cons (my_mb_wc_utf8mb4_take hr (by omega)) ?_
        rwa [List.drop_take, Nat.add_sub_cancel_left]
      · intro L k hL hk hd
        by_cases hL0 : L = 0
        · omega
        obtain ⟨n', w', k', hdec, rfl, hrest⟩ := hd.take_first (by omega) hL
        rw [hr] at hdec
        simp only [Prod.mk.injEq] at hdec
        rw [← hdec.1] at hrest
        have hrest_le := ih3 (L - n.toNat) k' (by rw [List.length_drop]; omega) (by omega) hrest
        omega

end AliSql
