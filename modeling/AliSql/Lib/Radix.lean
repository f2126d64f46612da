import Mathlib

/-!
# Positional numbers and their order

A storage key that must sort as the value it encodes is usually a positional number:
fields packed into bit ranges of one integer, or an integer written out as big-endian
bytes. Both rest on one fact about positional notation: when every digit below the
leading one is smaller than its radix, two numbers compare as their digit strings
compare lexicographically. This module states that fact once and the two uses built on
it:

* `compare_mul_add`: one more digit, `compare (a * r + x) (b * r + y)` is the
  comparison of `a, b` refined by that of `x, y`;
* `horner` and `compare_horner`: a mixed-radix number, leading digit first, compares as
  its list of digits;
* `bytes`, `value` and `compare_bytes`: big-endian bytes of a number, compared as byte
  strings (`compare` on `List UInt8`, the order `memcmp` computes), compare as the
  numbers do;
* `foldl_mul_add_eq` and `foldl_mul_add_bounds`: Horner's rule in one radix over the
  integers splits at any digit, and digits below the radix stay below its power;
* `compare_append`: a string made of a fixed-width head and a tail compares head first;
* `or_eq_add`: a bit field or-ed below a shifted one is added to it;
* `signMag` and `compare_signMag`: numbers written as a sign and a magnitude compare as
  another sign-magnitude encoding of the same magnitudes does;
* `tdiv_tmod_cases`: C's truncating quotient and remainder are the floor ones, or one
  borrow away from them.

Nothing here names a program; the modules that model a key format use these lemmas at
their own widths.
-/

set_option autoImplicit false

namespace Radix

/-! ## One digit more -/

/-- Appending a digit below the radix refines the comparison of the leading parts. -/
theorem compare_mul_add {r a b x y : Nat} (hx : x < r) (hy : y < r) :
    compare (a * r + x) (b * r + y) = (compare a b).then (compare x y) := by
  rcases Nat.lt_trichotomy a b with hab | rfl | hab
  · have hlt : a * r + x < b * r + y :=
      calc a * r + x < (a + 1) * r := by rw [Nat.succ_mul]; omega
        _ ≤ b * r := Nat.mul_le_mul_right r hab
        _ ≤ b * r + y := Nat.le_add_right _ _
    rw [Nat.compare_eq_lt.mpr hlt, Nat.compare_eq_lt.mpr hab]
    rfl
  · rcases Nat.lt_trichotomy x y with hxy | rfl | hxy
    · rw [Nat.compare_eq_lt.mpr (by omega), Nat.compare_eq_eq.mpr rfl,
        Nat.compare_eq_lt.mpr hxy]
      rfl
    · rw [Nat.compare_eq_eq.mpr rfl, Nat.compare_eq_eq.mpr rfl, Nat.compare_eq_eq.mpr rfl]
      rfl
    · rw [Nat.compare_eq_gt.mpr (by omega), Nat.compare_eq_eq.mpr rfl,
        Nat.compare_eq_gt.mpr hxy]
      rfl
  · have hgt : b * r + y < a * r + x :=
      calc b * r + y < (b + 1) * r := by rw [Nat.succ_mul]; omega
        _ ≤ a * r := Nat.mul_le_mul_right r hab
        _ ≤ a * r + x := Nat.le_add_right _ _
    rw [Nat.compare_eq_gt.mpr hgt, Nat.compare_eq_gt.mpr hab]
    rfl

/-- Non-negative integers compare as their natural numbers. -/
theorem compare_toNat {a b : Int} (ha : 0 ≤ a) (hb : 0 ≤ b) :
    compare a.toNat b.toNat = compare a b := by
  rcases Int.lt_trichotomy a b with hab | rfl | hab
  · rw [Nat.compare_eq_lt.mpr (by omega), Int.compare_eq_lt.mpr hab]
  · rw [Nat.compare_eq_eq.mpr rfl, Int.compare_eq_eq.mpr rfl]
  · rw [Nat.compare_eq_gt.mpr (by omega), Int.compare_eq_gt.mpr hab]

theorem compare_natCast (x y : Nat) : compare (x : Int) (y : Int) = compare x y := by
  rw [← compare_toNat (Int.natCast_nonneg x) (Int.natCast_nonneg y), Int.toNat_natCast,
    Int.toNat_natCast]

/-- Multiples of one positive number compare as their quotients. -/
theorem compare_div_of_dvd {k a b : Nat} (hk : 0 < k) (ha : k ∣ a) (hb : k ∣ b) :
    compare (a / k) (b / k) = compare a b := by
  obtain ⟨x, rfl⟩ := ha
  obtain ⟨y, rfl⟩ := hb
  rw [Nat.mul_div_cancel_left x hk, Nat.mul_div_cancel_left y hk]
  rcases Nat.lt_trichotomy x y with h | rfl | h
  · rw [Nat.compare_eq_lt.mpr h, Nat.compare_eq_lt.mpr (Nat.mul_lt_mul_of_pos_left h hk)]
  · rw [Nat.compare_eq_eq.mpr rfl, Nat.compare_eq_eq.mpr rfl]
  · rw [Nat.compare_eq_gt.mpr h, Nat.compare_eq_gt.mpr (Nat.mul_lt_mul_of_pos_left h hk)]

theorem compare_add_right_int (a b c : Int) : compare (a + c) (b + c) = compare a b := by
  rcases Int.lt_trichotomy a b with h | rfl | h
  · rw [Int.compare_eq_lt.mpr h, Int.compare_eq_lt.mpr (by omega)]
  · rw [Int.compare_eq_eq.mpr rfl, Int.compare_eq_eq.mpr rfl]
  · rw [Int.compare_eq_gt.mpr h, Int.compare_eq_gt.mpr (by omega)]

/-! ## Mixed radix -/

/-- Horner evaluation: the number with leading digit `d` followed by the digits of `ds`,
    each paired with its radix as `(radix, digit)`. -/
def horner : Nat → List (Nat × Nat) → Nat
  | d, [] => d
  | d, (r, x) :: ds => horner (d * r + x) ds

/-- Every digit is below its radix. -/
def Fits (ds : List (Nat × Nat)) : Prop := ∀ p ∈ ds, p.2 < p.1

theorem Fits.tail {p : Nat × Nat} {ds : List (Nat × Nat)} (h : Fits (p :: ds)) : Fits ds :=
  fun q hq => h q (List.mem_cons_of_mem p hq)

theorem Fits.head {p : Nat × Nat} {ds : List (Nat × Nat)} (h : Fits (p :: ds)) : p.2 < p.1 :=
  h p List.mem_cons_self

/-- **Mixed-radix numbers compare as their digit strings**: over the same radices, with
    every digit below the leading one fitting its radix, the comparison of the numbers
    is the lexicographic comparison of the digits. Induction on the digits, folding
    each one into the leading digit with `compare_mul_add`. -/
theorem compare_horner :
    ∀ {ds es : List (Nat × Nat)} (d e : Nat), ds.map Prod.fst = es.map Prod.fst →
      Fits ds → Fits es →
      compare (horner d ds) (horner e es) = compare (d :: ds.map Prod.snd) (e :: es.map Prod.snd)
  | [], [], d, e, _, _, _ => by
    rw [horner, horner, List.map_nil, List.compare_cons_cons, List.compare_nil_nil,
      Ordering.then_eq]
  | (r, x) :: ds, (r', y) :: es, d, e, hr, hds, hes => by
    obtain ⟨rfl, hrest⟩ : r = r' ∧ ds.map Prod.fst = es.map Prod.fst := by
      simpa only [List.map_cons, List.cons.injEq] using hr
    have hx : x < r := hds.head
    have hy : y < r := hes.head
    rw [horner, horner, compare_horner _ _ hrest hds.tail hes.tail, List.map_cons,
      List.map_cons, List.compare_cons_cons, compare_mul_add hx hy, Ordering.then_assoc,
      List.compare_cons_cons, List.compare_cons_cons]
  | [], _ :: _, _, _, hr, _, _ => by simp at hr
  | _ :: _, [], _, _, hr, _, _ => by simp at hr

/-! ## One radix over the integers

Digits kept most significant first and folded in by Horner's rule,
`ws.foldl (fun a w => a * B + w) a`, as a decimal type keeps its words. -/

section OneRadix

variable {B : Int}

/-- Horner's rule from a leading part `a`: `a` shifted past the digits, plus the digits. -/
theorem foldl_mul_add_eq (B : Int) :
    ∀ (ws : List Int) (a : Int),
      ws.foldl (fun a w => a * B + w) a = a * B ^ ws.length + ws.foldl (fun a w => a * B + w) 0
  | [], a => by simp
  | w :: ws, a => by
    rw [List.foldl_cons, List.foldl_cons, foldl_mul_add_eq B ws (a * B + w),
      foldl_mul_add_eq B ws (0 * B + w), List.length_cons, pow_succ]
    ring

/-- Digits below the radix make a number below the radix to their count. -/
theorem foldl_mul_add_bounds (hB : 0 < B) :
    ∀ {ws : List Int}, (∀ w ∈ ws, 0 ≤ w ∧ w < B) →
      0 ≤ ws.foldl (fun a w => a * B + w) 0 ∧ ws.foldl (fun a w => a * B + w) 0 < B ^ ws.length
  | [], _ => by simp
  | w :: ws, h => by
    obtain ⟨hw₀, hw₁⟩ := h w List.mem_cons_self
    obtain ⟨ih₀, ih₁⟩ := foldl_mul_add_bounds hB fun v hv => h v (List.mem_cons_of_mem w hv)
    have hpow : 0 < B ^ ws.length := pow_pos hB _
    -- the leading digit times the weight of the rest, plus less than one weight
    have hlead : (w + 1) * B ^ ws.length ≤ B * B ^ ws.length :=
      mul_le_mul_of_nonneg_right (by omega) (le_of_lt hpow)
    rw [List.foldl_cons, foldl_mul_add_eq B ws, List.length_cons, pow_succ']
    constructor <;> nlinarith

/-- Digits in range make zero only when all of them are zero. -/
theorem foldl_mul_add_eq_zero_iff (hB : 0 < B) :
    ∀ {ws : List Int}, (∀ w ∈ ws, 0 ≤ w ∧ w < B) →
      (ws.foldl (fun a w => a * B + w) 0 = 0 ↔ ∀ w ∈ ws, w = 0)
  | [], _ => by simp
  | w :: ws, h => by
    have hw₀ := (h w List.mem_cons_self).1
    have hrest : ∀ v ∈ ws, 0 ≤ v ∧ v < B := fun v hv => h v (List.mem_cons_of_mem w hv)
    have ih := foldl_mul_add_eq_zero_iff hB hrest
    have hF := (foldl_mul_add_bounds hB hrest).1
    have hpow : 0 < B ^ ws.length := pow_pos hB _
    rw [List.foldl_cons, foldl_mul_add_eq B ws, zero_mul, zero_add, List.forall_mem_cons, ← ih]
    constructor
    · intro hsum
      have hlead : w * B ^ ws.length = 0 := by nlinarith
      exact ⟨(mul_eq_zero.mp hlead).resolve_right (ne_of_gt hpow), by nlinarith⟩
    · rintro ⟨rfl, hz⟩
      rw [hz]
      ring

/-- Folding non-negative digits into a non-negative number does not make it smaller. -/
theorem le_foldl_mul_add (hB : 1 ≤ B) :
    ∀ {ws : List Int} {a : Int}, 0 ≤ a → (∀ w ∈ ws, 0 ≤ w) → a ≤ ws.foldl (fun a w => a * B + w) a
  | [], _, _, _ => le_rfl
  | w :: ws, a, ha, h => by
    have hw := h w List.mem_cons_self
    have hstep : a ≤ a * B + w := by nlinarith
    exact le_trans hstep
      (le_foldl_mul_add hB (by omega) fun v hv => h v (List.mem_cons_of_mem w hv))

end OneRadix

/-! ## Big-endian bytes -/

/-- The `w` low bytes of `n`, most significant first. -/
def bytes : Nat → Nat → List UInt8
  | 0, _ => []
  | w + 1, n => UInt8.ofNat (n / 256 ^ w) :: bytes w n

/-- The number whose big-endian bytes are `bs`. -/
def value : List UInt8 → Nat
  | [] => 0
  | b :: bs => b.toNat * 256 ^ bs.length + value bs

@[simp] theorem length_bytes : ∀ w n, (bytes w n).length = w
  | 0, _ => rfl
  | w + 1, n => by rw [bytes, List.length_cons, length_bytes w]

theorem value_lt : ∀ bs : List UInt8, value bs < 256 ^ bs.length
  | [] => by simp [value]
  | b :: bs => by
    have hb : b.toNat < 256 := b.toNat_lt
    have ih := value_lt bs
    have hstep : (b.toNat + 1) * 256 ^ bs.length ≤ 256 * 256 ^ bs.length :=
      Nat.mul_le_mul_right _ hb
    rw [value, List.length_cons, Nat.pow_succ, Nat.mul_comm _ 256]
    rw [Nat.succ_mul] at hstep
    omega

theorem value_bytes : ∀ w n, value (bytes w n) = n % 256 ^ w
  | 0, n => by simp [bytes, value, Nat.mod_one]
  | w + 1, n => by
    have hbyte : (UInt8.ofNat (n / 256 ^ w)).toNat = n / 256 ^ w % 256 := by simp
    rw [bytes, value, length_bytes, value_bytes w, hbyte, Nat.pow_succ, Nat.mod_mul,
      Nat.mul_comm (n / 256 ^ w % 256), Nat.add_comm]

theorem value_append : ∀ a b : List UInt8,
    value (a ++ b) = value a * 256 ^ b.length + value b
  | [], b => by simp [value]
  | x :: a, b => by
    rw [List.cons_append, value, value, value_append a b, List.length_append, Nat.pow_add]
    rw [Nat.add_mul, Nat.mul_assoc]
    omega

/-- Byte strings of one length compare as the numbers they write. -/
theorem compare_eq_compare_value :
    ∀ {bs cs : List UInt8}, bs.length = cs.length → compare bs cs = compare (value bs) (value cs)
  | [], [], _ => rfl
  | b :: bs, c :: cs, h => by
    have hlen : bs.length = cs.length := by simpa using h
    have hc : value cs < 256 ^ bs.length := by rw [hlen]; exact value_lt cs
    rw [List.compare_cons_cons, compare_eq_compare_value hlen, value, value, ← hlen,
      compare_mul_add (value_lt bs) hc, UInt8.compare_eq_toNat_compare_toNat]
  | [], _ :: _, h => by simp at h
  | _ :: _, [], h => by simp at h

/-- **Big-endian bytes sort as the numbers**: two numbers that fit `w` bytes compare as
    their `w`-byte images. -/
theorem compare_bytes {w m n : Nat} (hm : m < 256 ^ w) (hn : n < 256 ^ w) :
    compare (bytes w m) (bytes w n) = compare m n := by
  rw [compare_eq_compare_value (by simp), value_bytes, value_bytes, Nat.mod_eq_of_lt hm,
    Nat.mod_eq_of_lt hn]

/-! ## Strings made of parts -/

/-- Two strings with heads of one length compare head first, then tail. -/
theorem compare_append {α : Type} [Ord α] :
    ∀ {a c : List α} (b d : List α), a.length = c.length →
      compare (a ++ b) (c ++ d) = (compare a c).then (compare b d)
  | [], [], b, d, _ => by rw [List.nil_append, List.nil_append, List.compare_nil_nil]; rfl
  | x :: a, y :: c, b, d, h => by
    have hlen : a.length = c.length := by simpa using h
    rw [List.cons_append, List.cons_append, List.compare_cons_cons, compare_append b d hlen,
      List.compare_cons_cons, Ordering.then_assoc]
  | [], _ :: _, _, _, h => by simp at h
  | _ :: _, [], _, _, h => by simp at h

/-- Lexicographic comparison of digit strings is the list order `<`. -/
theorem compare_eq_lt_iff_lt : ∀ {l₁ l₂ : List Nat}, compare l₁ l₂ = .lt ↔ l₁ < l₂
  | [], [] => by simp
  | [], _ :: _ => by simp [List.compare_nil_cons, List.nil_lt_cons]
  | _ :: _, [] => by simp [List.compare_cons_nil, List.not_lt_nil]
  | a :: as, b :: bs => by
    rw [List.compare_cons_cons, List.cons_lt_cons_iff, ← compare_eq_lt_iff_lt]
    rcases Nat.lt_trichotomy a b with hab | rfl | hab
    · rw [Nat.compare_eq_lt.mpr hab]
      simp [hab]
    · rw [Nat.compare_eq_eq.mpr rfl]
      simp
    · rw [Nat.compare_eq_gt.mpr hab]
      simp [Nat.lt_asymm hab, Nat.ne_of_gt hab]

/-! ## Bit fields -/

/-- A field or-ed below a field shifted past it is added to it. -/
theorem or_eq_add {a b k : Nat} (ha : 2 ^ k ∣ a) (hb : b < 2 ^ k) : a ||| b = a + b := by
  obtain ⟨c, rfl⟩ := ha
  rw [Nat.mul_comm, ← Nat.shiftLeft_eq, Nat.shiftLeft_add_eq_or_of_lt hb]

/-! ## Sign and magnitude -/

/-- The integer with sign `neg` and magnitude `m`. -/
def signMag (neg : Bool) (m : Nat) : Int := if neg then -(m : Int) else m

/-- **Sign-magnitude numbers compare as their magnitudes do**: two encodings of the same
    pairs of magnitudes that order them alike, and agree on which is zero, order the
    signed numbers alike. -/
theorem compare_signMag {n₁ n₂ : Bool} {a₁ a₂ b₁ b₂ : Nat}
    (hab : compare a₁ a₂ = compare b₁ b₂) (h₁ : a₁ = 0 ↔ b₁ = 0) (h₂ : a₂ = 0 ↔ b₂ = 0) :
    compare (signMag n₁ a₁) (signMag n₂ a₂) = compare (signMag n₁ b₁) (signMag n₂ b₂) := by
  have hcmp : ∀ {x y u v : Int}, (x < y ↔ u < v) → (x = y ↔ u = v) → compare x y = compare u v := by
    intro x y u v hlt heq
    rcases Int.lt_trichotomy x y with hxy | rfl | hxy
    · rw [Int.compare_eq_lt.mpr hxy, Int.compare_eq_lt.mpr (hlt.mp hxy)]
    · rw [Int.compare_eq_eq.mpr rfl, Int.compare_eq_eq.mpr (heq.mp rfl)]
    · have hvu : v < u := by
        rcases Int.lt_trichotomy u v with h | h | h
        · exact absurd (hlt.mpr h) (Int.lt_asymm hxy)
        · exact absurd (heq.mpr h) (Int.ne_of_gt hxy)
        · exact h
      rw [Int.compare_eq_gt.mpr hxy, Int.compare_eq_gt.mpr hvu]
  -- The magnitudes stand in the same relation, and each is zero on both sides or on none.
  have hrel : (a₁ < a₂ ∧ b₁ < b₂) ∨ (a₁ = a₂ ∧ b₁ = b₂) ∨ (a₂ < a₁ ∧ b₂ < b₁) := by
    rcases Nat.lt_trichotomy a₁ a₂ with h | rfl | h
    · exact .inl ⟨h, Nat.compare_eq_lt.mp (hab ▸ Nat.compare_eq_lt.mpr h)⟩
    · exact .inr (.inl ⟨rfl, Nat.compare_eq_eq.mp (hab ▸ Nat.compare_eq_eq.mpr rfl)⟩)
    · exact .inr (.inr ⟨h, Nat.compare_eq_gt.mp (hab ▸ Nat.compare_eq_gt.mpr h)⟩)
  have hzero : ∀ {a b : Nat}, (a = 0 ↔ b = 0) → (a = 0 ∧ b = 0) ∨ (0 < a ∧ 0 < b) := by
    intro a b h
    rcases Nat.eq_zero_or_pos a with ha | ha
    · exact .inl ⟨ha, h.mp ha⟩
    · exact .inr ⟨ha, Nat.pos_of_ne_zero fun hb => Nat.ne_of_gt ha (h.mpr hb)⟩
  have hz₁ := hzero h₁
  have hz₂ := hzero h₂
  apply hcmp <;> cases n₁ <;> cases n₂ <;> simp only [signMag, Bool.false_eq_true, ↓reduceIte] <;>
    constructor <;> intro <;> omega

/-! ## Truncating division

C divides toward zero (`Int.tdiv`, `Int.tmod`). Code that wants digits in `[0, b)` takes one
borrow when the remainder comes out negative; the two cases below are what that borrow
undoes. -/

/-- The truncated quotient and remainder against the floor ones: equal when the remainder
    is not negative, and one borrow apart when it is. -/
theorem tdiv_tmod_cases (a : Int) {b : Int} (hb : 0 < b) :
    (0 ≤ a.tmod b ∧ a.tdiv b = a / b ∧ a.tmod b = a % b) ∨
      (a.tmod b < 0 ∧ a.tdiv b = a / b + 1 ∧ a.tmod b = a % b - b) := by
  have hq := @Int.tdiv_eq_ediv a b
  have hr := @Int.tmod_eq_emod a b
  have hlt := Int.emod_lt_of_pos a hb
  have hnn := Int.emod_nonneg a (show b ≠ 0 by omega)
  by_cases hc : 0 ≤ a ∨ b ∣ a
  · rw [if_pos hc] at hq hr
    left
    omega
  · rw [if_neg hc, Int.sign_eq_one_of_pos hb] at hq
    rw [if_neg hc] at hr
    have hb' : ((b.natAbs : Nat) : Int) = b := Int.natAbs_of_nonneg (by omega)
    right
    omega

end Radix
