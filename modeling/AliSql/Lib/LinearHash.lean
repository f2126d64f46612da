import Mathlib

/-!
# Addresses in linear hashing

A linear-hashing table keeps `r` buckets, numbered `0 .. r - 1`, in an address space of
`b` buckets, `b` a power of two with `b / 2 ≤ r ≤ b`. A hash value `h` belongs to bucket
`h % b` when that bucket is in use, and to `h % (b / 2)` when it is not: to the bucket
that `h % b` will later be split from. The table grows by one bucket at a time, and
adding bucket `r` takes out of bucket `r - b / 2` exactly the values with `h % b = r`;
once `r` reaches `b` the address space doubles, and that moves nothing.

* `addr_lt`: every value has a bucket in use;
* `addr_succ`: adding bucket `r` moves the values with `h % b = r`, to `r`, and no others;
  `addr_of_mod_eq`: those values came from bucket `r - b / 2`, and `mod_eq_iff_and`:
  among the values of that bucket they are the ones whose bit `b / 2` is set;
* `addr_pred`: taking out the last bucket `r` sends its values back to `r - b / 2`;
* `addr_double`: doubling a full address space moves nothing;
* `mod_two_pow_succ_eq`, the arithmetic underneath: `h % 2c = h % c + (h &&& c)`.
-/

set_option autoImplicit false

namespace LinearHash

/-- The bucket of hash value `h` among `r` buckets in an address space of `b`. -/
def addr (h b r : Nat) : Nat := if h % b < r then h % b else h % (b / 2)

variable {h b r n : Nat}

/-- Bit `n` of `h` is what `h % 2 ^ (n + 1)` adds to `h % 2 ^ n`. -/
theorem mod_two_pow_succ_eq (h n : Nat) : h % 2 ^ (n + 1) = h % 2 ^ n + (h &&& 2 ^ n) := by
  rw [Nat.mod_pow_succ, Nat.and_two_pow, Nat.toNat_testBit]
  ring

theorem and_two_pow_eq (h n : Nat) : (h &&& 2 ^ n) = 0 ∨ (h &&& 2 ^ n) = 2 ^ n := by
  rw [Nat.and_two_pow]
  cases h.testBit n <;> simp

/-- Every hash value has a bucket in use. -/
theorem addr_lt (hb : 0 < b) (hr : b / 2 ≤ r) (h0 : 0 < r) : addr h b r < r := by
  unfold addr
  split_ifs with hlt
  · exact hlt
  · -- `h % b ≥ r > 0`, so `b ≠ 1` and the lower half of the address space is not empty
    have hb1 : b ≠ 1 := by
      rintro rfl
      rw [Nat.mod_one] at hlt
      omega
    have hhalf : 0 < b / 2 := by omega
    exact lt_of_lt_of_le (Nat.mod_lt h hhalf) hr

/-- **Adding bucket `r`** moves the values with `h % b = r` to it and leaves every other
    value where it was. -/
theorem addr_succ : addr h b (r + 1) = if h % b = r then r else addr h b r := by
  unfold addr
  split_ifs <;> omega

/-- The values that adding bucket `r` moves come from bucket `r - b / 2`. -/
theorem addr_of_mod_eq (hr : 2 ^ n ≤ r) (hm : h % 2 ^ (n + 1) = r) :
    addr h (2 ^ (n + 1)) r = r - 2 ^ n := by
  have hsplit := mod_two_pow_succ_eq h n
  have hlow := Nat.mod_lt h (Nat.two_pow_pos n)
  rcases and_two_pow_eq h n with hbit | hbit
  · omega
  · rw [addr, if_neg (by omega), Nat.pow_succ, Nat.mul_div_cancel _ (by norm_num)]
    omega

/-- **The split test.** Among the values of bucket `r - b / 2`, those that adding bucket
    `r` moves are those whose bit `b / 2` is set. -/
theorem mod_eq_iff_and (hr : 2 ^ n ≤ r) (hr' : r < 2 ^ (n + 1))
    (hF : addr h (2 ^ (n + 1)) r = r - 2 ^ n) :
    h % 2 ^ (n + 1) = r ↔ (h &&& 2 ^ n) ≠ 0 := by
  have hsplit := mod_two_pow_succ_eq h n
  have hlow := Nat.mod_lt h (Nat.two_pow_pos n)
  have hhalf : 2 ^ (n + 1) / 2 = 2 ^ n := by
    rw [Nat.pow_succ, Nat.mul_div_cancel _ (by norm_num)]
  rw [addr, hhalf] at hF
  rcases and_two_pow_eq h n with hbit | hbit <;> split_ifs at hF <;> omega

/-- **Taking out the last bucket `r`** sends its values back to bucket `r - b / 2`, and
    leaves every other value where it was. -/
theorem addr_pred (hr : 2 ^ n ≤ r) :
    addr h (2 ^ (n + 1)) r =
      if addr h (2 ^ (n + 1)) (r + 1) = r then r - 2 ^ n else addr h (2 ^ (n + 1)) (r + 1) := by
  rw [addr_succ]
  by_cases hm : h % 2 ^ (n + 1) = r
  · rw [if_pos hm, if_pos rfl]
    exact addr_of_mod_eq hr hm
  · -- the other values are in buckets below `r`
    have hlt : addr h (2 ^ (n + 1)) r < r := by
      refine addr_lt (Nat.two_pow_pos _) ?_ (lt_of_lt_of_le (Nat.two_pow_pos n) hr)
      rw [Nat.pow_succ, Nat.mul_div_cancel _ (by norm_num)]
      exact hr
    rw [if_neg hm, if_neg hlt.ne]

/-- **Doubling a full address space** moves nothing. -/
theorem addr_double (hb : 0 < b) : addr h (b + b) b = addr h b b := by
  have hmod : h % (b + b) % b = h % b := by
    rw [← Nat.mul_two]
    exact Nat.mod_mul_right_mod h b 2
  have hhalf : (b + b) / 2 = b := by omega
  rw [addr, addr, hhalf, if_pos (Nat.mod_lt h hb)]
  split_ifs with hlt
  · rw [← hmod, Nat.mod_eq_of_lt hlt]
  · rfl

end LinearHash
