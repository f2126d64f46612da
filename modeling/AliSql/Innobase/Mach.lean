import Mathlib
import AliSql.Lib.Radix

/-!
# `storage/innobase/include/mach0data.ic`: compressed integers

InnoDB writes small numbers of its redo log and its pages in a compressed form whose
first byte says the length: a `ulint` below `2^32` takes 1 to 5 bytes, marked by the
number of leading one bits of the first byte (`mach_write_compressed`). A 64-bit number
is its high word compressed, then its low word in four bytes
(`mach_ull_write_compressed`), or, "much compressed", the low word alone when the high
word is zero and otherwise `0xFF` and both words compressed
(`mach_ull_write_much_compressed`). The readers mask the tag bits off with one constant
per width; the parsers of the redo log (`mach_parse_compressed`,
`mach_ull_parse_compressed`) check the end of the record before each read.

A buffer is the list of its bytes from the pointer on, and `b + k` is `b.drop k`; a
writer returns the bytes it writes together with the size the C function returns. The
record a parser is handed is the list of the bytes between `ptr` and `end_ptr`, so that
`end_ptr < ptr + k` is `buf.length < k`; a returned pointer `ptr + k` is `some k`. The
numbers are `Nat`, and the shift `n <<= 32` of an `ib_uint64_t` is taken modulo `2^64`.

What is proved, for every number of the range and whatever follows the written bytes:
each writer writes as many bytes as it returns and as the matching `*_get_*_size`
reports, each reader gives the number back, and each parser returns the size and the
number when the record holds the bytes and `NULL` when it ends before them
(`mach_compressed_round_trip`). The tag bits of every width are one lemma
(`tag_or_eq_add`, `tag_and_mask`).
-/

set_option autoImplicit false

namespace AliSql

open Radix

/-! ## Bytes -/

/-- `mach_write_to_n(b, n)`: the `k` low bytes of `n`, most significant first. -/
def mach_write_to (k n : Nat) : List UInt8 := bytes k n

def mach_write_to_1 (n : Nat) : List UInt8 := mach_write_to 1 n
def mach_write_to_2 (n : Nat) : List UInt8 := mach_write_to 2 n
def mach_write_to_3 (n : Nat) : List UInt8 := mach_write_to 3 n
def mach_write_to_4 (n : Nat) : List UInt8 := mach_write_to 4 n

/-- `mach_read_from_n(b)`: the `k` bytes at `b` as a big-endian number. -/
def mach_read_from (k : Nat) (b : List UInt8) : Nat := value (b.take k)

def mach_read_from_1 (b : List UInt8) : Nat := mach_read_from 1 b
def mach_read_from_2 (b : List UInt8) : Nat := mach_read_from 2 b
def mach_read_from_3 (b : List UInt8) : Nat := mach_read_from 3 b
def mach_read_from_4 (b : List UInt8) : Nat := mach_read_from 4 b

/-! ## The `ulint` form -/

/-- `mach_write_compressed(b, n)`: the bytes written at `b` and the size returned. -/
def mach_write_compressed (n : Nat) : List UInt8 × Nat :=
  if n < 0x80 then (mach_write_to_1 n, 1)
  else if n < 0x4000 then (mach_write_to_2 (n ||| 0x8000), 2)
  else if n < 0x200000 then (mach_write_to_3 (n ||| 0xC00000), 3)
  else if n < 0x10000000 then (mach_write_to_4 (n ||| 0xE0000000), 4)
  else (mach_write_to_1 0xF0 ++ mach_write_to_4 n, 5)

/-- `mach_get_compressed_size(n)`. -/
def mach_get_compressed_size (n : Nat) : Nat :=
  if n < 0x80 then 1
  else if n < 0x4000 then 2
  else if n < 0x200000 then 3
  else if n < 0x10000000 then 4
  else 5

/-- `mach_read_compressed(b)`. -/
def mach_read_compressed (b : List UInt8) : Nat :=
  let flag := mach_read_from_1 b
  if flag < 0x80 then flag
  else if flag < 0xC0 then mach_read_from_2 b &&& 0x7FFF
  else if flag < 0xE0 then mach_read_from_3 b &&& 0x3FFFFF
  else if flag < 0xF0 then mach_read_from_4 b &&& 0x1FFFFFFF
  else mach_read_from_4 (b.drop 1)

/-- `mach_parse_compressed(ptr, end_ptr, &val)` on the bytes of `[ptr, end_ptr)`: the
    offset of the returned pointer and `val`, or `none` for `NULL`. -/
def mach_parse_compressed (buf : List UInt8) : Option (Nat × Nat) :=
  if buf.length = 0 then none
  else
    let flag := mach_read_from_1 buf
    if flag < 0x80 then some (1, flag)
    else if flag < 0xC0 then
      if buf.length < 2 then none else some (2, mach_read_from_2 buf &&& 0x7FFF)
    else if flag < 0xE0 then
      if buf.length < 3 then none else some (3, mach_read_from_3 buf &&& 0x3FFFFF)
    else if flag < 0xF0 then
      if buf.length < 4 then none else some (4, mach_read_from_4 buf &&& 0x1FFFFFFF)
    else
      if buf.length < 5 then none else some (5, mach_read_from_4 (buf.drop 1))

example : mach_write_compressed 0x3FFF = ([0xBF, 0xFF], 2) := by decide
example : mach_read_compressed [0xDF, 0xFF, 0xFF, 7] = 0x1FFFFF := by decide
example : mach_parse_compressed [0xE1, 0, 0] = none := by decide

/-! ## The 64-bit forms -/

/-- `mach_ull_write_compressed(b, n)`: the high word compressed, then the low word; the
    low word is written at `b + size`, right after the bytes of the high word. -/
def mach_ull_write_compressed (n : Nat) : List UInt8 × Nat :=
  let (high, size) := mach_write_compressed (n >>> 32)
  (high ++ mach_write_to_4 n, size + 4)

/-- `mach_ull_get_compressed_size(n)`. -/
def mach_ull_get_compressed_size (n : Nat) : Nat := 4 + mach_get_compressed_size (n >>> 32)

/-- `mach_ull_read_compressed(b)`. -/
def mach_ull_read_compressed (b : List UInt8) : Nat :=
  let n := mach_read_compressed b
  let size := mach_get_compressed_size n
  (n <<< 32) % 2 ^ 64 ||| mach_read_from_4 (b.drop size)

/-- `mach_ull_write_much_compressed(b, n)`. -/
def mach_ull_write_much_compressed (n : Nat) : List UInt8 × Nat :=
  if n >>> 32 = 0 then mach_write_compressed n
  else
    let (high, size) := mach_write_compressed (n >>> 32)
    let (low, size') := mach_write_compressed (n &&& 0xFFFFFFFF)
    ([0xFF] ++ high ++ low, 1 + size + size')

/-- `ULINT32_MASK` (`univ.i`). -/
def ULINT32_MASK : Nat := 0xFFFFFFFF

/-- `mach_ull_get_much_compressed_size(n)`. -/
def mach_ull_get_much_compressed_size (n : Nat) : Nat :=
  if n >>> 32 = 0 then mach_get_compressed_size n
  else 1 + mach_get_compressed_size (n >>> 32) + mach_get_compressed_size (n &&& ULINT32_MASK)

/-- `mach_ull_read_much_compressed(b)`. -/
def mach_ull_read_much_compressed (b : List UInt8) : Nat :=
  let (n, size) :=
    if mach_read_from_1 b ≠ 0xFF then (0, 0)
    else
      let n := mach_read_compressed (b.drop 1)
      ((n <<< 32) % 2 ^ 64, 1 + mach_get_compressed_size n)
  n ||| mach_read_compressed (b.drop size)

/-- `mach_ull_parse_compressed(ptr, end_ptr, &val)` on the bytes of `[ptr, end_ptr)`. -/
def mach_ull_parse_compressed (buf : List UInt8) : Option (Nat × Nat) :=
  if buf.length < 5 then none
  else
    let val := mach_read_compressed buf
    let size := mach_get_compressed_size val
    if buf.length < size + 4 then none
    else some (size + 4, (val <<< 32) % 2 ^ 64 ||| mach_read_from_4 (buf.drop size))

example : mach_ull_write_much_compressed (2 ^ 32 + 5) = ([0xFF, 1, 5], 3) := by decide

/-! ## Stores read back -/

@[simp] theorem length_mach_write_to (k n : Nat) : (mach_write_to k n).length = k :=
  length_bytes k n

theorem mach_read_from_write_to (k n : Nat) (rest : List UInt8) :
    mach_read_from k (mach_write_to k n ++ rest) = n % 256 ^ k := by
  rw [mach_read_from, List.take_left' (length_mach_write_to k n), mach_write_to, value_bytes]

/-- The first byte of a store is its top byte. -/
theorem mach_read_from_1_write_to (k n : Nat) (rest : List UInt8) :
    mach_read_from 1 (mach_write_to (k + 1) n ++ rest) = n / 256 ^ k % 256 := by
  simp [mach_read_from, mach_write_to, bytes, value]

/-- A tag whose low `b` bits are clear, or-ed to a number below `2^b`, is added to it. -/
theorem tag_or_eq_add {n tag b : Nat} (htag : 2 ^ b ∣ tag) (hn : n < 2 ^ b) :
    n ||| tag = tag + n := by
  rw [Nat.or_comm, or_eq_add htag hn]

/-- The mask of the `b` low bits takes the tag off again. -/
theorem tag_and_mask {n tag b : Nat} (htag : 2 ^ b ∣ tag) (hn : n < 2 ^ b) :
    (tag + n) &&& (2 ^ b - 1) = n := by
  obtain ⟨c, rfl⟩ := htag
  rw [Nat.and_two_pow_sub_one_eq_mod, Nat.mul_add_mod, Nat.mod_eq_of_lt hn]

/-- **One width of the code.** A number below `2^b` stored in `k + 1` bytes under a tag
    whose `b` low bits are clear: the first byte is the top byte of the tagged number,
    and the mask of the `b` low bits reads the number back. -/
theorem tagged_store {k b : Nat} (tag n : Nat) (rest : List UInt8) (htag : 2 ^ b ∣ tag)
    (hn : n < 2 ^ b) (hfit : tag + n < 256 ^ (k + 1)) :
    mach_read_from 1 (mach_write_to (k + 1) (n ||| tag) ++ rest) = (tag + n) / 256 ^ k % 256 ∧
      mach_read_from (k + 1) (mach_write_to (k + 1) (n ||| tag) ++ rest) &&& (2 ^ b - 1) = n := by
  rw [tag_or_eq_add htag hn, mach_read_from_1_write_to, mach_read_from_write_to,
    Nat.mod_eq_of_lt hfit, tag_and_mask htag hn]
  exact ⟨rfl, rfl⟩

/-- A record cut anywhere after its first `k` bytes keeps them. -/
theorem mach_read_from_take {k e : Nat} (he : k ≤ e) (l : List UInt8) :
    mach_read_from k (l.take e) = mach_read_from k l := by
  rw [mach_read_from, mach_read_from, List.take_take, Nat.min_eq_left he]

/-! ## The `ulint` form reads back -/

/-- The writer writes as many bytes as it returns, and as `mach_get_compressed_size`
    reports. -/
theorem mach_write_compressed_size (n : Nat) :
    (mach_write_compressed n).2 = mach_get_compressed_size n ∧
      (mach_write_compressed n).1.length = mach_get_compressed_size n := by
  unfold mach_write_compressed mach_get_compressed_size
  split_ifs <;> simp [mach_write_to_1, mach_write_to_2, mach_write_to_3, mach_write_to_4]

theorem mach_get_compressed_size_bounds (n : Nat) :
    1 ≤ mach_get_compressed_size n ∧ mach_get_compressed_size n ≤ 5 := by
  unfold mach_get_compressed_size
  split_ifs <;> omega

theorem mach_read_compressed_write {n : Nat} (hn : n < 2 ^ 32) (rest : List UInt8) :
    mach_read_compressed ((mach_write_compressed n).1 ++ rest) = n := by
  unfold mach_write_compressed
  split_ifs with h1 h2 h3 h4
  · -- one byte: the number is its own flag
    have hflag : mach_read_from_1 (mach_write_to_1 n ++ rest) = n := by
      rw [mach_read_from_1, mach_write_to_1, mach_read_from_1_write_to]
      omega
    simp only [mach_read_compressed, hflag, if_pos h1]
  · -- two bytes under 0x8000
    obtain ⟨hflag, hval⟩ := tagged_store (k := 1) (b := 15) 0x8000 n rest (by norm_num)
      (by omega) (by norm_num; omega)
    simp only [Nat.reduceAdd, Nat.reducePow, pow_one] at hflag hval
    simp only [mach_read_compressed, mach_read_from_1, mach_read_from_2, mach_write_to_2, hflag]
    rw [if_neg (by omega), if_pos (by omega)]
    exact hval
  · -- three bytes under 0xC00000
    obtain ⟨hflag, hval⟩ := tagged_store (k := 2) (b := 22) 0xC00000 n rest (by norm_num)
      (by omega) (by norm_num; omega)
    simp only [Nat.reduceAdd, Nat.reducePow] at hflag hval
    simp only [mach_read_compressed, mach_read_from_1, mach_read_from_3, mach_write_to_3, hflag]
    rw [if_neg (by omega), if_neg (by omega), if_pos (by omega)]
    exact hval
  · -- four bytes under 0xE0000000
    obtain ⟨hflag, hval⟩ := tagged_store (k := 3) (b := 29) 0xE0000000 n rest (by norm_num)
      (by omega) (by norm_num; omega)
    simp only [Nat.reduceAdd, Nat.reducePow] at hflag hval
    simp only [mach_read_compressed, mach_read_from_1, mach_read_from_4, mach_write_to_4, hflag]
    rw [if_neg (by omega), if_neg (by omega), if_neg (by omega), if_pos (by omega)]
    exact hval
  · -- five bytes: the flag 0xF0, then the number
    have hflag : mach_read_from_1 (mach_write_to_1 0xF0 ++ mach_write_to_4 n ++ rest) = 0xF0 := by
      rw [mach_read_from_1, mach_write_to_1, List.append_assoc, mach_read_from_1_write_to]
      rfl
    have hval : mach_read_from_4 ((mach_write_to_1 0xF0 ++ mach_write_to_4 n ++ rest).drop 1) =
        n := by
      rw [List.append_assoc, mach_write_to_1, List.drop_left' (length_mach_write_to 1 _),
        mach_read_from_4, mach_write_to_4, mach_read_from_write_to]
      omega
    simp only [mach_read_compressed, hflag, hval]
    rfl

/-- The size that the first byte of a compressed number announces, as the branches of
    `mach_read_compressed` and `mach_parse_compressed` tell the widths apart. -/
def mach_compressed_flag_size (flag : Nat) : Nat :=
  if flag < 0x80 then 1
  else if flag < 0xC0 then 2
  else if flag < 0xE0 then 3
  else if flag < 0xF0 then 4
  else 5

/-- **The first byte announces the size**: the flag the writer puts first names the
    width `mach_get_compressed_size` gives. -/
theorem mach_write_compressed_flag {n : Nat} (hn : n < 2 ^ 32) (rest : List UInt8) :
    mach_read_from_1 ((mach_write_compressed n).1 ++ rest) ≤ 0xF0 ∧
      mach_compressed_flag_size (mach_read_from_1 ((mach_write_compressed n).1 ++ rest)) =
        mach_get_compressed_size n := by
  unfold mach_write_compressed mach_get_compressed_size
  split_ifs with h1 h2 h3 h4
  · rw [mach_read_from_1, mach_write_to_1, mach_read_from_1_write_to, mach_compressed_flag_size,
      if_pos (by omega)]
    omega
  · obtain ⟨hflag, -⟩ := tagged_store (k := 1) (b := 15) 0x8000 n rest (by norm_num)
      (by omega) (by norm_num; omega)
    simp only [Nat.reduceAdd, pow_one] at hflag
    rw [mach_read_from_1, mach_write_to_2, hflag, mach_compressed_flag_size, if_neg (by omega),
      if_pos (by omega)]
    omega
  · obtain ⟨hflag, -⟩ := tagged_store (k := 2) (b := 22) 0xC00000 n rest (by norm_num)
      (by omega) (by norm_num; omega)
    simp only [Nat.reduceAdd, Nat.reducePow] at hflag
    rw [mach_read_from_1, mach_write_to_3, hflag, mach_compressed_flag_size, if_neg (by omega),
      if_neg (by omega), if_pos (by omega)]
    omega
  · obtain ⟨hflag, -⟩ := tagged_store (k := 3) (b := 29) 0xE0000000 n rest (by norm_num)
      (by omega) (by norm_num; omega)
    simp only [Nat.reduceAdd, Nat.reducePow] at hflag
    rw [mach_read_from_1, mach_write_to_4, hflag, mach_compressed_flag_size, if_neg (by omega),
      if_neg (by omega), if_neg (by omega), if_pos (by omega)]
    omega
  · rw [mach_read_from_1, mach_write_to_1, List.append_assoc, mach_read_from_1_write_to]
    exact ⟨by decide, rfl⟩

/-- **The parser is the reader behind a length check**: on a record that holds its first
    byte it returns what `mach_read_compressed` reads when the record holds as many bytes
    as that byte announces, and `NULL` when it does not. -/
theorem mach_parse_compressed_eq {buf : List UInt8} (hbuf : buf ≠ []) :
    mach_parse_compressed buf =
      if buf.length < mach_compressed_flag_size (mach_read_from_1 buf) then none
      else some (mach_compressed_flag_size (mach_read_from_1 buf), mach_read_compressed buf) := by
  have hlen : buf.length ≠ 0 := by simpa using hbuf
  unfold mach_parse_compressed mach_compressed_flag_size mach_read_compressed
  simp only [hlen, if_false]
  split_ifs <;> first | rfl | omega

theorem mach_parse_compressed_write {n : Nat} (hn : n < 2 ^ 32) (rest : List UInt8) (e : Nat) :
    mach_parse_compressed (((mach_write_compressed n).1 ++ rest).take e) =
      if mach_get_compressed_size n ≤ e then some (mach_get_compressed_size n, n) else none := by
  obtain ⟨-, hlen⟩ := mach_write_compressed_size n
  have hsize := (mach_get_compressed_size_bounds n).1
  rcases Nat.eq_zero_or_pos e with rfl | he
  · -- an empty record
    rw [if_neg (by omega)]
    rfl
  have hbuf : ((mach_write_compressed n).1 ++ rest).take e ≠ [] := by
    apply List.ne_nil_of_length_pos
    simp only [List.length_take, List.length_append, hlen]
    omega
  have hflag := (mach_write_compressed_flag hn rest).2
  rw [mach_parse_compressed_eq hbuf, mach_read_from_1, mach_read_from_take he,
    ← mach_read_from_1, hflag]
  by_cases hfull : mach_get_compressed_size n ≤ e
  · -- the record holds the written bytes, and the reader reads them
    have htake : ((mach_write_compressed n).1 ++ rest).take e =
        (mach_write_compressed n).1 ++ rest.take (e - mach_get_compressed_size n) := by
      rw [List.take_append, List.take_of_length_le (by omega), hlen]
    rw [if_pos hfull, if_neg (by simp [htake, hlen]), htake, mach_read_compressed_write hn]
  · -- the record ends inside them
    rw [if_neg hfull, if_pos]
    simp only [List.length_take, List.length_append, hlen]
    omega

/-! ## The 64-bit forms read back -/

/-- A 64-bit number is its high word shifted up, or-ed with its low word. -/
theorem shift_or_low {n : Nat} (hn : n < 2 ^ 64) : (n >>> 32 <<< 32) % 2 ^ 64 ||| n % 2 ^ 32 = n := by
  have hhigh : n >>> 32 <<< 32 = n / 2 ^ 32 * 2 ^ 32 := by
    rw [Nat.shiftLeft_eq, Nat.shiftRight_eq_div_pow]
  have hle : n / 2 ^ 32 * 2 ^ 32 ≤ n := Nat.div_mul_le_self n _
  rw [hhigh, Nat.mod_eq_of_lt (by omega), or_eq_add (Nat.dvd_mul_left _ _) (Nat.mod_lt _ (by norm_num)),
    Nat.div_add_mod']

theorem high_word_lt {n : Nat} (hn : n < 2 ^ 64) : n >>> 32 < 2 ^ 32 := by
  rw [Nat.shiftRight_eq_div_pow]
  omega

theorem mach_ull_write_compressed_size (n : Nat) :
    (mach_ull_write_compressed n).2 = mach_ull_get_compressed_size n ∧
      (mach_ull_write_compressed n).1.length = mach_ull_get_compressed_size n := by
  obtain ⟨hs, hl⟩ := mach_write_compressed_size (n >>> 32)
  simp only [mach_ull_write_compressed, mach_ull_get_compressed_size, List.length_append, hs, hl,
    mach_write_to_4, length_mach_write_to]
  omega

theorem mach_ull_read_compressed_write {n : Nat} (hn : n < 2 ^ 64) (rest : List UInt8) :
    mach_ull_read_compressed ((mach_ull_write_compressed n).1 ++ rest) = n := by
  obtain ⟨-, hl⟩ := mach_write_compressed_size (n >>> 32)
  simp only [mach_ull_write_compressed, mach_ull_read_compressed, List.append_assoc,
    mach_read_compressed_write (high_word_lt hn), ← hl, List.drop_left, mach_read_from_4,
    mach_write_to_4, mach_read_from_write_to]
  exact shift_or_low hn

theorem mach_ull_parse_compressed_write {n : Nat} (hn : n < 2 ^ 64) (rest : List UInt8) (e : Nat) :
    mach_ull_parse_compressed (((mach_ull_write_compressed n).1 ++ rest).take e) =
      if mach_ull_get_compressed_size n ≤ e then some (mach_ull_get_compressed_size n, n)
      else none := by
  obtain ⟨-, hl⟩ := mach_write_compressed_size (n >>> 32)
  obtain ⟨-, hlen⟩ := mach_ull_write_compressed_size n
  have hu : mach_ull_get_compressed_size n = 4 + mach_get_compressed_size (n >>> 32) := rfl
  have hsize := mach_get_compressed_size_bounds (n >>> 32)
  have hlen_take : (((mach_ull_write_compressed n).1 ++ rest).take e).length =
      min e (mach_ull_get_compressed_size n + rest.length) := by
    rw [List.length_take, List.length_append, hlen]
  unfold mach_ull_parse_compressed
  by_cases h5 : (((mach_ull_write_compressed n).1 ++ rest).take e).length < 5
  · -- a record of fewer than five bytes holds no 64-bit number
    rw [if_pos h5, if_neg (by omega)]
  rw [if_neg h5]
  -- the record holds the high word, whatever it holds after it
  have hbuf : ((mach_ull_write_compressed n).1 ++ rest).take e =
      (mach_write_compressed (n >>> 32)).1 ++
        (mach_write_to_4 n ++ rest).take (e - mach_get_compressed_size (n >>> 32)) := by
    simp only [mach_ull_write_compressed, List.append_assoc]
    rw [List.take_append, List.take_of_length_le (by omega), hl]
  have hval : mach_read_compressed (((mach_ull_write_compressed n).1 ++ rest).take e) =
      n >>> 32 := by
    rw [hbuf, mach_read_compressed_write (high_word_lt hn)]
  rw [hval]
  by_cases hfull : mach_ull_get_compressed_size n ≤ e
  · -- the record holds the low word too
    have hlow : mach_read_from_4 ((((mach_ull_write_compressed n).1 ++ rest).take e).drop
        (mach_get_compressed_size (n >>> 32))) = n % 2 ^ 32 := by
      rw [hbuf, ← hl, List.drop_left, mach_read_from_4, mach_read_from_take (by omega),
        mach_write_to_4, mach_read_from_write_to]
      norm_num
    rw [if_neg (by omega), hlow, shift_or_low hn, if_pos hfull, hu, Nat.add_comm]
  · rw [if_pos (by omega), if_neg hfull]

theorem low_word_eq {n : Nat} : n &&& 0xFFFFFFFF = n % 2 ^ 32 :=
  Nat.and_two_pow_sub_one_eq_mod n 32

theorem mach_ull_write_much_compressed_size (n : Nat) :
    (mach_ull_write_much_compressed n).2 = mach_ull_get_much_compressed_size n ∧
      (mach_ull_write_much_compressed n).1.length = mach_ull_get_much_compressed_size n := by
  unfold mach_ull_write_much_compressed mach_ull_get_much_compressed_size
  split_ifs
  · exact mach_write_compressed_size n
  · obtain ⟨hs, hl⟩ := mach_write_compressed_size (n >>> 32)
    obtain ⟨hs', hl'⟩ := mach_write_compressed_size (n &&& 0xFFFFFFFF)
    simp only [List.length_append, List.length_singleton, hs, hl, hs', hl', ULINT32_MASK,
      and_self]

theorem mach_ull_read_much_compressed_write {n : Nat} (hn : n < 2 ^ 64) (rest : List UInt8) :
    mach_ull_read_much_compressed ((mach_ull_write_much_compressed n).1 ++ rest) = n := by
  unfold mach_ull_write_much_compressed
  split_ifs with hhigh
  · -- a number of one word: its flag is never the escape 0xFF
    have hsmall : n < 2 ^ 32 := by
      rw [Nat.shiftRight_eq_div_pow] at hhigh
      omega
    have hne : mach_read_from_1 ((mach_write_compressed n).1 ++ rest) ≠ 0xFF := by
      have := (mach_write_compressed_flag hsmall rest).1
      omega
    simp only [mach_ull_read_much_compressed, hne, ne_eq, not_false_eq_true, if_true,
      List.drop_zero, Nat.zero_or, mach_read_compressed_write hsmall]
  · -- the escape, the high word, then the low word
    obtain ⟨-, hl⟩ := mach_write_compressed_size (n >>> 32)
    have hlow : n &&& 0xFFFFFFFF < 2 ^ 32 := by
      rw [low_word_eq]
      exact Nat.mod_lt _ (by norm_num)
    have hbytes : [(0xFF : UInt8)] ++ (mach_write_compressed (n >>> 32)).1 ++
        (mach_write_compressed (n &&& 0xFFFFFFFF)).1 ++ rest =
        (0xFF : UInt8) :: ((mach_write_compressed (n >>> 32)).1 ++
          ((mach_write_compressed (n &&& 0xFFFFFFFF)).1 ++ rest)) := by
      simp
    have hesc : ∀ l : List UInt8, mach_read_from_1 ((0xFF : UInt8) :: l) = 0xFF := fun _ => rfl
    rw [hbytes]
    simp only [mach_ull_read_much_compressed, hesc, ne_eq, not_true_eq_false, if_false,
      List.drop_succ_cons, List.drop_zero, mach_read_compressed_write (high_word_lt hn), ← hl,
      Nat.add_comm 1, List.drop_append_length, mach_read_compressed_write hlow]
    rw [low_word_eq]
    exact shift_or_low hn

/-! ## The compressed forms round trip -/

/-- **InnoDB's compressed integers round trip and parse consistently.** For every `ulint`
    below `2^32` and every 64-bit number, and whatever bytes follow the written ones:
    each writer writes as many bytes as it returns and as its `*_get_*_size` reports,
    each reader reads the number back, and each redo-log parser returns the size and the
    number on a record that holds the bytes and `NULL` on one that ends before them. -/
theorem mach_compressed_round_trip :
    (∀ n < 2 ^ 32, ∀ rest : List UInt8,
      (mach_write_compressed n).2 = mach_get_compressed_size n ∧
        (mach_write_compressed n).1.length = mach_get_compressed_size n ∧
        mach_read_compressed ((mach_write_compressed n).1 ++ rest) = n ∧
        ∀ e, mach_parse_compressed (((mach_write_compressed n).1 ++ rest).take e) =
          if mach_get_compressed_size n ≤ e then some (mach_get_compressed_size n, n)
          else none) ∧
    (∀ n < 2 ^ 64, ∀ rest : List UInt8,
      (mach_ull_write_compressed n).2 = mach_ull_get_compressed_size n ∧
        (mach_ull_write_compressed n).1.length = mach_ull_get_compressed_size n ∧
        mach_ull_read_compressed ((mach_ull_write_compressed n).1 ++ rest) = n ∧
        (∀ e, mach_ull_parse_compressed (((mach_ull_write_compressed n).1 ++ rest).take e) =
          if mach_ull_get_compressed_size n ≤ e then some (mach_ull_get_compressed_size n, n)
          else none) ∧
        (mach_ull_write_much_compressed n).2 = mach_ull_get_much_compressed_size n ∧
        (mach_ull_write_much_compressed n).1.length = mach_ull_get_much_compressed_size n ∧
        mach_ull_read_much_compressed ((mach_ull_write_much_compressed n).1 ++ rest) = n) := by
  refine ⟨fun n hn rest => ?_, fun n hn rest => ?_⟩
  · obtain ⟨hs, hl⟩ := mach_write_compressed_size n
    exact ⟨hs, hl, mach_read_compressed_write hn rest, mach_parse_compressed_write hn rest⟩
  · obtain ⟨hs, hl⟩ := mach_ull_write_compressed_size n
    obtain ⟨hs', hl'⟩ := mach_ull_write_much_compressed_size n
    exact ⟨hs, hl, mach_ull_read_compressed_write hn rest, mach_ull_parse_compressed_write hn rest,
      hs', hl', mach_ull_read_much_compressed_write hn rest⟩

theorem mach_compressed_round_trip_largest :
    mach_read_compressed ((mach_write_compressed 0xFFFFFFFF).1 ++ [7]) = 0xFFFFFFFF ∧
      mach_ull_read_much_compressed ((mach_ull_write_much_compressed (2 ^ 64 - 1)).1 ++ [7]) =
        2 ^ 64 - 1 :=
  ⟨(mach_compressed_round_trip.1 0xFFFFFFFF (by norm_num) [7]).2.2.1,
    (mach_compressed_round_trip.2 (2 ^ 64 - 1) (by norm_num) [7]).2.2.2.2.2.2⟩

end AliSql
