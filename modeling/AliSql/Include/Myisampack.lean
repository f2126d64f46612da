import Mathlib
import AliSql.Lib.Radix

/-!
# `include/myisampack.h`: big-endian stores and reads

The on-disk formats of DECIMAL, TIME and DATETIME keep their numbers in
`myisampack.h`'s byte order, most significant byte first, so that the bytes sort as
the numbers do. The macros come in families:

* `mi_intNstore(T, A)` writes the `N` low bytes of `A`: each byte is
  `(uchar) (def_temp >> 8k)` of `A` converted to an unsigned long, that is byte `k` of
  `A mod 2^64`, and for the low bytes of an integer of either sign byte `k` of
  `A mod 2^(8N)`; one definition `mi_int_store N` with each member as its instance;
* `mi_uintNkorr(A)` reads `N` bytes as an unsigned number (`mi_uint_korr N`);
* `mi_sintNkorr(A)` reads them as a two's-complement number of `8N` bits, sign-extended
  (`signed`).

A buffer is the list of its bytes; `A + k` is `A.drop k`. What is proved: a store is
`N` bytes long, reading it back gives the value modulo `2^(8N)`, a signed read of a
stored in-range integer gives it back (`signed_mi_uint_korr_store`), and stores of two in-range non-negative values
compare as the values (`compare_mi_int_store`, from `Radix.compare_bytes`).
-/

set_option autoImplicit false

namespace AliSql

/-- `(uchar) x`: the low byte of an integer. -/
def uchar_of (x : Int) : UInt8 := UInt8.ofNat (x % 256).toNat

/-- The `n` low bytes of `a`, most significant first. -/
def mi_int_store (n : Nat) (a : Int) : List UInt8 := Radix.bytes n (a % 256 ^ n).toNat

def mi_int2store (a : Int) : List UInt8 := mi_int_store 2 a
def mi_int3store (a : Int) : List UInt8 := mi_int_store 3 a
def mi_int4store (a : Int) : List UInt8 := mi_int_store 4 a
def mi_int5store (a : Int) : List UInt8 := mi_int_store 5 a
def mi_int6store (a : Int) : List UInt8 := mi_int_store 6 a

/-- The first `n` bytes of `A` read as an unsigned big-endian number. -/
def mi_uint_korr (n : Nat) (A : List UInt8) : Nat := Radix.value (A.take n)

def mi_uint2korr (A : List UInt8) : Nat := mi_uint_korr 2 A
def mi_uint3korr (A : List UInt8) : Nat := mi_uint_korr 3 A
def mi_uint4korr (A : List UInt8) : Nat := mi_uint_korr 4 A
def mi_uint5korr (A : List UInt8) : Nat := mi_uint_korr 5 A
def mi_uint6korr (A : List UInt8) : Nat := mi_uint_korr 6 A

/-- An unsigned number of `bits` bits read as two's complement. -/
def signed (bits : Nat) (v : Nat) : Int := if v < 2 ^ (bits - 1) then v else (v : Int) - 2 ^ bits

/-- `(int8) (*A)`, also `(signed char) A[0]`. -/
def mi_sint1korr (A : List UInt8) : Int := signed 8 (mi_uint_korr 1 A)
def mi_sint2korr (A : List UInt8) : Int := signed 16 (mi_uint_korr 2 A)
/-- `mi_sint3korr` fills the top byte of an `int32` with ones when bit 23 is set. -/
def mi_sint3korr (A : List UInt8) : Int := signed 24 (mi_uint_korr 3 A)
def mi_sint4korr (A : List UInt8) : Int := signed 32 (mi_uint_korr 4 A)

/-! ## Stores and reads -/

@[simp] theorem length_mi_int_store (n : Nat) (a : Int) : (mi_int_store n a).length = n :=
  Radix.length_bytes n _

theorem mi_int_store_nonneg_lt (n : Nat) (a : Int) :
    0 ≤ a % 256 ^ n ∧ a % 256 ^ n < 256 ^ n :=
  ⟨Int.emod_nonneg a (by positivity), Int.emod_lt_of_pos a (by positivity)⟩

/-- A store, read as a big-endian number, is the value modulo `2^(8n)`. -/
theorem value_mi_int_store (n : Nat) (a : Int) : (Radix.value (mi_int_store n a) : Int) = a % 256 ^ n := by
  obtain ⟨h₀, h₁⟩ := mi_int_store_nonneg_lt n a
  have hcast : ((256 ^ n : Nat) : Int) = 256 ^ n := Int.natCast_pow 256 n
  have hlt : (a % 256 ^ n).toNat < 256 ^ n := by omega
  rw [mi_int_store, Radix.value_bytes, Nat.mod_eq_of_lt hlt, Int.toNat_of_nonneg h₀]

/-- Reading back a store, whatever follows it, gives the stored value modulo
    `2^(8n)`. -/
theorem mi_uint_korr_store (n : Nat) (a : Int) (rest : List UInt8) :
    (mi_uint_korr n (mi_int_store n a ++ rest) : Int) = a % 256 ^ n := by
  obtain ⟨h₀, h₁⟩ := mi_int_store_nonneg_lt n a
  have hcast : ((256 ^ n : Nat) : Int) = 256 ^ n := Int.natCast_pow 256 n
  have hlt : (a % 256 ^ n).toNat < 256 ^ n := by omega
  rw [mi_uint_korr, List.take_left' (length_mi_int_store n a), mi_int_store, Radix.value_bytes,
    Nat.mod_eq_of_lt hlt, Int.toNat_of_nonneg h₀]

/-- `A[k]` as an unsigned number is the one-byte read at `A + k`. -/
theorem getD_toNat_eq_mi_uint_korr : ∀ (A : List UInt8) (k : Nat),
    (A.getD k 0).toNat = mi_uint_korr 1 (A.drop k)
  | [], k => by simp [mi_uint_korr, Radix.value]
  | b :: A, 0 => by simp [mi_uint_korr, Radix.value]
  | _ :: A, k + 1 => by
    rw [List.getD_cons_succ, List.drop_succ_cons, getD_toNat_eq_mi_uint_korr A k]

theorem mi_uint_korr_mi_int_store (n : Nat) (a : Int) :
    (mi_uint_korr n (mi_int_store n a) : Int) = a % 256 ^ n := by
  rw [mi_uint_korr, List.take_of_length_le (by simp), value_mi_int_store]

/-- An integer of `bits` bits, reduced modulo `2^bits` and read as two's complement,
    is itself. -/
theorem signed_emod {bits : Nat} (hb : 0 < bits) {a : Int}
    (hlo : -(2 ^ (bits - 1)) ≤ a) (hhi : a < 2 ^ (bits - 1)) :
    signed bits (a % 2 ^ bits).toNat = a := by
  have hM : (2 : Int) ^ bits = 2 * 2 ^ (bits - 1) := by
    rw [← pow_succ']
    congr 1
    omega
  have hH : (0 : Int) < 2 ^ (bits - 1) := by positivity
  have hcast : ((2 ^ (bits - 1) : Nat) : Int) = 2 ^ (bits - 1) := Int.natCast_pow 2 _
  rcases Int.lt_or_le a 0 with ha | ha
  · -- A negative `a` is stored as `a + 2^bits`, at least half the range.
    have hmod : a % 2 ^ bits = a + 2 ^ bits := by
      rw [← Int.add_emod_right, Int.emod_eq_of_lt (by omega) (by omega)]
    have hnot : ¬ (a % 2 ^ bits).toNat < 2 ^ (bits - 1) := by
      rw [hmod]
      omega
    rw [signed, if_neg hnot, hmod, Int.toNat_of_nonneg (by omega)]
    omega
  · have hmod : a % 2 ^ bits = a := Int.emod_eq_of_lt ha (by omega)
    have hlt : (a % 2 ^ bits).toNat < 2 ^ (bits - 1) := by
      rw [hmod]
      omega
    rw [signed, if_pos hlt, hmod, Int.toNat_of_nonneg ha]

theorem pow_256 (n : Nat) : (256 : Int) ^ n = 2 ^ (8 * n) := by
  rw [show (256 : Int) = 2 ^ 8 by decide, ← pow_mul]

/-- A signed read of a stored integer of `bits = 8n` bits gives it back. -/
theorem signed_mi_uint_korr_store {bits n : Nat} (hbits : bits = 8 * n) (hn : 0 < n) {a : Int}
    (hlo : -(2 ^ (bits - 1)) ≤ a) (hhi : a < 2 ^ (bits - 1)) (rest : List UInt8) :
    signed bits (mi_uint_korr n (mi_int_store n a ++ rest)) = a := by
  subst hbits
  have hread : mi_uint_korr n (mi_int_store n a ++ rest) = (a % 2 ^ (8 * n)).toNat := by
    rw [← pow_256]
    have h := mi_uint_korr_store n a rest
    omega
  rw [hread, signed_emod (by omega) hlo hhi]

theorem mi_sint1korr_store {a : Int} (hlo : -128 ≤ a) (hhi : a < 128) (rest : List UInt8) :
    mi_sint1korr (mi_int_store 1 a ++ rest) = a :=
  signed_mi_uint_korr_store rfl (by decide) (by omega) (by omega) rest

theorem mi_sint2korr_store {a : Int} (hlo : -32768 ≤ a) (hhi : a < 32768) (rest : List UInt8) :
    mi_sint2korr (mi_int_store 2 a ++ rest) = a :=
  signed_mi_uint_korr_store rfl (by decide) (by omega) (by omega) rest

theorem mi_sint3korr_store {a : Int} (hlo : -8388608 ≤ a) (hhi : a < 8388608)
    (rest : List UInt8) : mi_sint3korr (mi_int_store 3 a ++ rest) = a :=
  signed_mi_uint_korr_store rfl (by decide) (by omega) (by omega) rest

/-- **Stores sort as the values**: two non-negative values of `n` bytes compare as their
    stores. -/
theorem compare_mi_int_store {n : Nat} {a b : Int} (ha : 0 ≤ a) (ha' : a < 256 ^ n)
    (hb : 0 ≤ b) (hb' : b < 256 ^ n) :
    compare (mi_int_store n a) (mi_int_store n b) = compare a b := by
  have hma : a % 256 ^ n = a := Int.emod_eq_of_lt ha ha'
  have hmb : b % 256 ^ n = b := Int.emod_eq_of_lt hb hb'
  have hpow : ((256 ^ n : Nat) : Int) = 256 ^ n := Int.natCast_pow 256 n
  rw [mi_int_store, mi_int_store, hma, hmb, Radix.compare_bytes (by omega) (by omega),
    Radix.compare_toNat ha hb]

end AliSql
