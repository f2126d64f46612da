import Mathlib

/-!
# The C library functions the model calls

The code under `src/` calls a handful of functions of the C standard library. They
are not repository code, so they are modelled here by their documented behaviour and
under their own names:

* `memcmp` over equal-length buffers: the sign of the first differing byte, compared
  as `unsigned char`;
* `isspace` in the "C" locale (the six characters `' '`, `\t`, `\n`, `\v`, `\f`,
  `\r`) and `isdigit`; MySQL's `my_isspace` / `my_isdigit` on `my_charset_latin1`
  and `my_charset_utf8_general_ci` mark the same characters below `0x80`
  (`ctype_utf8` in `strings/ctype-utf8.c`, bit `_MY_SPC`);
* `strtoll(nptr, &endptr, 0)`, as glibc documents it: leading white space, an
  optional sign, the base taken from the prefix (`0x`/`0X` hexadecimal, `0` octal,
  otherwise decimal), saturation at `LLONG_MIN`/`LLONG_MAX`, and `endptr` left at
  `nptr` when there is no digit at all;
* `atoll` and `atoi`, which glibc reads as `strtoll(nptr, NULL, 10)` and
  `(int) strtol(nptr, NULL, 10)`;
* `strstr`, the text from the first occurrence of a needle on;
* `bsearch`, glibc's loop over the half-open window `[l, u)`, which returns the index
  of an element comparing equal to the key (`NULL` when it finds none): what it returns
  holds the key for any array (`bsearch_sound`), and on an array ascending on its first
  `nmemb` elements it finds the key whenever it is there (`bsearch_eq_none_iff`).

A C string is modelled as the list of its characters before the terminating `NUL`;
`peek` is `*s`, which reads `'\0'` at the end.
-/

set_option autoImplicit false

namespace AliSql
namespace Libc

/-- `*s` on a C string: the first character, `'\0'` at the end. -/
def peek : List Char → Char
  | [] => '\x00'
  | c :: _ => c

@[simp] theorem peek_nil : peek [] = '\x00' := rfl
@[simp] theorem peek_cons (c : Char) (s : List Char) : peek (c :: s) = c := rfl

/-- `memcmp(a, b, n)` on two buffers of `n` bytes. -/
def memcmp : List UInt8 → List UInt8 → Ordering
  | a :: as, b :: bs =>
    match compare a b with
    | .eq => memcmp as bs
    | o => o
  | _, _ => .eq

/-- On buffers of one length `memcmp` is the lexicographic order of bytes. -/
theorem memcmp_eq_compare : ∀ {a b : List UInt8}, a.length = b.length → memcmp a b = compare a b
  | [], [], _ => rfl
  | x :: a, y :: b, h => by
    have hlen : a.length = b.length := by simpa using h
    rw [memcmp, List.compare_cons_cons]
    cases hxy : compare x y with
    | lt => rfl
    | eq => exact memcmp_eq_compare hlen
    | gt => rfl
  | [], _ :: _, h => by simp at h
  | _ :: _, [], h => by simp at h

/-- `isspace` in the "C" locale. -/
def isspace (c : Char) : Bool :=
  c = ' ' || c = '\t' || c = '\n' || c = '\x0b' || c = '\x0c' || c = '\r'

/-- `isdigit`. -/
def isdigit (c : Char) : Bool := '0' ≤ c && c ≤ '9'

/-- The value of `c` as a digit of a base up to 36, as `strtol` reads digits. -/
def digit_value (c : Char) : Option Nat :=
  if '0' ≤ c ∧ c ≤ '9' then some (c.toNat - '0'.toNat)
  else if 'a' ≤ c ∧ c ≤ 'z' then some (c.toNat - 'a'.toNat + 10)
  else if 'A' ≤ c ∧ c ≤ 'Z' then some (c.toNat - 'A'.toNat + 10)
  else none

/-- The longest run of digits of base `base` at the front of `s`, and what follows. -/
def take_digits (base : Nat) : List Char → List Nat × List Char
  | [] => ([], [])
  | c :: s =>
    match digit_value c with
    | some d =>
      if d < base then
        let r := take_digits base s
        (d :: r.1, r.2)
      else ([], c :: s)
    | none => ([], c :: s)

/-- The number a list of digits spells in base `base`, most significant first. -/
def digits_value (base : Nat) (ds : List Nat) : Nat := ds.foldl (fun a d => a * base + d) 0

/-- `LLONG_MAX`. -/
def LLONG_MAX : Int := 2 ^ 63 - 1

/-- `LLONG_MIN`. -/
def LLONG_MIN : Int := -2 ^ 63

/-- The base `strtoll(…, 0)` reads after the sign, and where its digits begin: a `0x`
    or `0X` followed by a hexadecimal digit selects base 16, any other leading `0`
    base 8, anything else base 10. -/
def base_prefix : List Char → Nat × List Char
  | '0' :: x :: r =>
    if (x = 'x' ∨ x = 'X') ∧ (take_digits 16 r).1 ≠ [] then (16, r) else (8, '0' :: x :: r)
  | '0' :: [] => (8, ['0'])
  | s => (10, s)

/-- The optional sign `strtoll` reads after the white space: `true` for `'-'`. -/
def sign_prefix : List Char → Bool × List Char
  | '-' :: r => (true, r)
  | '+' :: r => (false, r)
  | s => (false, s)

/-- `strtoll(nptr, &endptr, 0)`: the value, saturated to the range of `long long`, and
    the text from `endptr` on (all of `nptr` when no digit was read). -/
def strtoll (nptr : List Char) : Int × List Char :=
  let (neg, s) := sign_prefix (nptr.dropWhile isspace)
  let (base, s) := base_prefix s
  let (ds, rest) := take_digits base s
  if ds = [] then (0, nptr)
  else
    let v : Int := if neg then -(digits_value base ds : Int) else digits_value base ds
    (max LLONG_MIN (min v LLONG_MAX), rest)

example : strtoll " 42:7".toList = (42, ":7".toList) := by decide
example : strtoll "0x1F-".toList = (31, "-".toList) := by decide
example : strtoll "0xg".toList = (0, "xg".toList) := by decide
example : strtoll "-".toList = (0, "-".toList) := by decide

/-- `strtoll` saturates at `LLONG_MAX`. -/
theorem strtoll_le (nptr : List Char) : (strtoll nptr).1 ≤ LLONG_MAX := by
  unfold strtoll
  -- through the three destructuring `let`s to the final `if`
  split
  split
  split
  split <;> simp only [LLONG_MIN, LLONG_MAX] <;> omega

/-! ## `strtoll` on the decimal digits of a number

What the GTID text parser needs of `strtoll`: it reads back the decimal text of a
positive number (`Nat.toDigits 10`, which is what `ll2str` writes) and stops at the
first character that is not a digit. -/

theorem isdigit_eq_isDigit (c : Char) : isdigit c = c.isDigit := by
  simp [isdigit, Char.isDigit, Char.le_def]

theorem isdigit_of_mem_toDigits {n : Nat} {c : Char} (hc : c ∈ Nat.toDigits 10 n) :
    isdigit c = true := by
  rw [isdigit_eq_isDigit]
  exact Nat.isDigit_of_mem_toDigits (by decide) (by decide) hc

theorem isspace_eq_false_of_isdigit {c : Char} (h : isdigit c = true) : isspace c = false := by
  simp only [isdigit, Bool.and_eq_true, decide_eq_true_eq, Char.le_def] at h
  simp only [isspace, Bool.or_eq_false_iff, decide_eq_false_iff_not]
  refine ⟨⟨⟨⟨⟨?_, ?_⟩, ?_⟩, ?_⟩, ?_⟩, ?_⟩ <;> rintro rfl <;> simp at h

/-- A decimal digit is read as its value. -/
theorem digit_value_of_isdigit {c : Char} (h : isdigit c = true) :
    digit_value c = some (c.toNat - '0'.toNat) := by
  simp only [isdigit, Bool.and_eq_true, decide_eq_true_eq] at h
  simp [digit_value, h]

/-- Anything `digit_value` reads as a digit below ten is a decimal digit. -/
theorem isdigit_of_digit_value {c : Char} {d : Nat} (h : digit_value c = some d) (hd : d < 10) :
    isdigit c = true := by
  unfold digit_value at h
  simp only [isdigit, Bool.and_eq_true, decide_eq_true_eq]
  split at h
  · assumption
  · split at h
    · simp only [Option.some.injEq] at h
      omega
    · split at h
      · simp only [Option.some.injEq] at h
        omega
      · exact absurd h (by simp)

theorem take_digits_of_not_isdigit {rest : List Char} (hr : isdigit (peek rest) = false) :
    take_digits 10 rest = ([], rest) := by
  cases rest with
  | nil => rfl
  | cons c r =>
    simp only [peek_cons] at hr
    unfold take_digits
    split
    · rename_i d hd
      have hge : ¬d < 10 := fun hlt => by simp [isdigit_of_digit_value hd hlt] at hr
      simp [hge]
    · rfl

theorem take_digits_append :
    ∀ (ds : List Char) {rest : List Char}, (∀ c ∈ ds, isdigit c = true) →
      isdigit (peek rest) = false →
      take_digits 10 (ds ++ rest) = (ds.map fun c => c.toNat - '0'.toNat, rest)
  | [], _, _, hr => take_digits_of_not_isdigit hr
  | c :: ds, rest, hds, hr => by
    have hc := hds c List.mem_cons_self
    have hlt : c.toNat - '0'.toNat < 10 := by
      simp only [isdigit, Bool.and_eq_true, decide_eq_true_eq, Char.le_def,
        UInt32.le_iff_toNat_le] at hc
      simp only [Char.toNat]
      simp at hc ⊢
      omega
    simp only [List.cons_append, take_digits, digit_value_of_isdigit hc, hlt, if_true,
      take_digits_append ds (fun c hc => hds c (List.mem_cons_of_mem _ hc)) hr, List.map_cons]

theorem digits_value_map (ds : List Char) :
    digits_value 10 (ds.map fun c => c.toNat - '0'.toNat) = Nat.ofDigitChars 10 ds 0 := by
  simp only [digits_value, List.foldl_map, Nat.ofDigitChars_eq_foldl, Nat.mul_comm]

/-- The decimal text of a positive number does not begin with `'0'`. -/
theorem toDigits_eq_cons (n : Nat) (hn : 1 ≤ n) :
    ∃ c cs, Nat.toDigits 10 n = c :: cs ∧ c ≠ '0' := by
  induction n using Nat.strongRecOn with
  | ind n ih =>
    rcases Nat.lt_or_ge n 10 with hlt | hge
    · have hne : ∀ m < 10, 1 ≤ m → m.digitChar ≠ '0' := by decide
      exact ⟨_, [], Nat.toDigits_of_lt_base hlt, hne n hlt hn⟩
    · obtain ⟨c, cs, h, hc⟩ := ih (n / 10) (by omega) (by omega)
      exact ⟨c, cs ++ [(n % 10).digitChar], by
        rw [Nat.toDigits_of_base_le (by decide) hge, h, List.cons_append], hc⟩

/-- **`strtoll` reads back the decimal text of a positive number**, up to the first
    character that is not a digit. -/
theorem strtoll_toDigits {n : Nat} (hn : 1 ≤ n) {rest : List Char}
    (hr : isdigit (peek rest) = false) :
    strtoll (Nat.toDigits 10 n ++ rest) = (min (n : Int) LLONG_MAX, rest) := by
  obtain ⟨c, cs, hds, hc0⟩ := toDigits_eq_cons n hn
  have hdig : ∀ d ∈ c :: cs, isdigit d = true := fun d hd =>
    isdigit_of_mem_toDigits (hds ▸ hd)
  have hc := hdig c List.mem_cons_self
  have hws : (c :: cs ++ rest).dropWhile isspace = c :: cs ++ rest := by
    rw [List.cons_append, List.dropWhile_cons_of_neg (by simp [isspace_eq_false_of_isdigit hc])]
  have hsign : sign_prefix (c :: cs ++ rest) = (false, c :: cs ++ rest) := by
    have hm : c ≠ '-' := by rintro rfl; simp [isdigit] at hc
    have hp : c ≠ '+' := by rintro rfl; simp [isdigit] at hc
    unfold sign_prefix
    split <;> simp_all
  have hbase : base_prefix (c :: cs ++ rest) = (10, c :: cs ++ rest) := by
    unfold base_prefix
    split <;> simp_all
  have htake := take_digits_append (c :: cs) hdig hr
  have hval : digits_value 10 ((c.toNat - '0'.toNat) :: cs.map fun c => c.toNat - '0'.toNat) =
      n := by
    have h := digits_value_map (c :: cs)
    rw [List.map_cons] at h
    rw [h, ← hds, Nat.ofDigitChars_ten_toDigits]
  simp only [strtoll, hds, hws, hsign, hbase, htake, List.map_cons, reduceCtorEq, if_false,
    Bool.false_eq_true, hval]
  congr 1
  simp only [LLONG_MIN, LLONG_MAX] at *
  omega

/-! ## `atoll`, `atoi` and `strstr` -/

/-- `atoll(nptr)`: `strtoll(nptr, NULL, 10)`, so no base prefix is read. -/
def atoll (nptr : List Char) : Int :=
  let (neg, s) := sign_prefix (nptr.dropWhile isspace)
  let v : Int := digits_value 10 (take_digits 10 s).1
  max LLONG_MIN (min (if neg then -v else v) LLONG_MAX)

/-- `atoi(nptr)`: glibc's `(int) strtol(nptr, NULL, 10)`, the 64-bit `long` cut to the
    32 bits of an `int`. -/
def atoi (nptr : List Char) : Int := Int.bmod (atoll nptr) (2 ^ 32)

example : atoll " 42,7".toList = 42 := by decide
example : atoll "-0x5".toList = 0 := by decide
example : atoi "4294967297".toList = 1 := by decide

/-- `atoll` reads no sign in front of a digit, so what it reads there is not negative. -/
theorem atoll_nonneg {s : List Char} (h : isdigit (peek s) = true) : 0 ≤ atoll s := by
  obtain ⟨c, r, rfl⟩ : ∃ c r, s = c :: r := by
    cases s with
    | nil => simp [isdigit] at h
    | cons c r => exact ⟨c, r, rfl⟩
  simp only [peek_cons] at h
  have hws : (c :: r).dropWhile isspace = c :: r :=
    List.dropWhile_cons_of_neg (by simp [isspace_eq_false_of_isdigit h])
  have hsign : sign_prefix (c :: r) = (false, c :: r) := by
    have hm : c ≠ '-' := by rintro rfl; simp [isdigit] at h
    have hp : c ≠ '+' := by rintro rfl; simp [isdigit] at h
    unfold sign_prefix
    split <;> simp_all
  simp only [atoll, hws, hsign, Bool.false_eq_true, if_false, LLONG_MIN, LLONG_MAX]
  omega

/-- `strstr(haystack, needle)`: the text of `haystack` from the first occurrence of
    `needle` on, `NULL` when there is none. -/
def strstr : List Char → List Char → Option (List Char)
  | [], needle => if needle.isPrefixOf [] then some [] else none
  | c :: s, needle => if needle.isPrefixOf (c :: s) then some (c :: s) else strstr s needle

example : strstr "a,b,c".toList [','] = some ",b,c".toList := by decide
example : strstr "abc".toList "bd".toList = none := by decide

/-- What `strstr` finds is a suffix of the haystack, where the needle begins. -/
theorem strstr_eq_some {needle r : List Char} :
    ∀ {s : List Char}, strstr s needle = some r → r <:+ s ∧ needle <+: r
  | [], h => by
    unfold strstr at h
    split at h
    · cases h
      exact ⟨List.suffix_refl _, List.isPrefixOf_iff_prefix.mp ‹_›⟩
    · cases h
  | c :: s, h => by
    unfold strstr at h
    split at h
    · cases h
      exact ⟨List.suffix_refl _, List.isPrefixOf_iff_prefix.mp ‹_›⟩
    · obtain ⟨hs, hp⟩ := strstr_eq_some h
      exact ⟨hs.trans (List.suffix_cons c s), hp⟩

/-- **`strstr` finds the leftmost occurrence**: a suffix of the haystack that begins with
    the needle is a suffix of what `strstr` returns. -/
theorem strstr_leftmost {needle r t : List Char} :
    ∀ {s : List Char}, strstr s needle = some r → t <:+ s → needle <+: t → t <:+ r
  | [], h, ht, _ => by
    unfold strstr at h
    split at h
    · cases h
      exact ht
    · cases h
  | c :: s, h, ht, hn => by
    unfold strstr at h
    split at h
    · cases h
      exact ht
    · rcases List.suffix_cons_iff.mp ht with rfl | ht'
      · exact absurd (List.isPrefixOf_iff_prefix.mpr hn) ‹_›
      · exact strstr_leftmost h ht' hn

/-- `strstr` returns `NULL` exactly when the needle does not occur in the haystack. -/
theorem strstr_eq_none_iff {needle : List Char} :
    ∀ {s : List Char}, strstr s needle = none ↔ ¬ needle <:+: s
  | [] => by
    unfold strstr
    split
    · simp only [reduceCtorEq, false_iff, not_not]
      exact (List.isPrefixOf_iff_prefix.mp ‹_›).isInfix
    · simp only [true_iff]
      intro hi
      exact ‹¬ _› (List.isPrefixOf_iff_prefix.mpr (List.eq_nil_of_infix_nil hi ▸ List.nil_prefix))
  | c :: s => by
    unfold strstr
    split
    · simp only [reduceCtorEq, false_iff, not_not]
      exact (List.isPrefixOf_iff_prefix.mp ‹_›).isInfix
    · rw [strstr_eq_none_iff, List.infix_cons_iff]
      constructor
      · rintro hs (hp | hi)
        · exact ‹¬ _› (List.isPrefixOf_iff_prefix.mpr hp)
        · exact hs hi
      · exact fun h hi => h (Or.inr hi)

/-! ## `bsearch` -/

/-- The loop of glibc's `bsearch` on the window `[l, u)`: the middle element is compared
    with the key, and the window shrinks to the side where the key must lie. -/
def bsearch.loop {α : Type} [Inhabited α] (key : α) (base : List α) (compar : α → α → Int)
    (l u : Nat) : Option Nat :=
  if h : l < u then
    let idx := (l + u) / 2
    let comparison := compar key (base.getD idx default)
    if comparison < 0 then bsearch.loop key base compar l idx
    else if comparison > 0 then bsearch.loop key base compar (idx + 1) u
    else some idx
  else none
termination_by u - l

/-- `bsearch(key, base, nmemb, size, compar)`: the index of the element found. -/
def bsearch {α : Type} [Inhabited α] (key : α) (base : List α) (nmemb : Nat)
    (compar : α → α → Int) : Option Nat :=
  bsearch.loop key base compar 0 nmemb

section bsearch

variable {α : Type} [Inhabited α] {key : α} {base : List α} {compar : α → α → Int}

/-- What the loop returns lies in its window and compares equal to the key, whatever the
    order of the array. -/
theorem bsearch.loop_sound {l u i : Nat} (h : bsearch.loop key base compar l u = some i) :
    l ≤ i ∧ i < u ∧ compar key (base.getD i default) = 0 := by
  fun_induction bsearch.loop key base compar l u with
  | case1 l u hlu idx comparison hneg ih =>
    obtain ⟨h₁, h₂, h₃⟩ := ih h
    exact ⟨h₁, by omega, h₃⟩
  | case2 l u hlu idx comparison hneg hpos ih =>
    obtain ⟨h₁, h₂, h₃⟩ := ih h
    exact ⟨by omega, h₂, h₃⟩
  | case3 l u hlu idx comparison hneg hpos =>
    obtain rfl := Option.some.inj h
    have hidx : idx = (l + u) / 2 := rfl
    have hcmp : comparison = compar key (base.getD idx default) := rfl
    exact ⟨by omega, by omega, by omega⟩
  | case4 => cases h

end bsearch

section bsearch_sorted

variable {α : Type} [LinearOrder α]

/-- A compare function whose sign is that of the order: negative when the first argument
    is the smaller, positive when it is the larger. -/
structure Compar_orders (compar : α → α → Int) : Prop where
  neg_iff : ∀ a b, compar a b < 0 ↔ a < b
  pos_iff : ∀ a b, 0 < compar a b ↔ b < a

theorem Compar_orders.eq_of_zero {compar : α → α → Int} (hc : Compar_orders compar) {a b : α}
    (h : compar a b = 0) : a = b :=
  le_antisymm (not_lt.mp fun hlt => by have := (hc.pos_iff a b).mpr hlt; omega)
    (not_lt.mp fun hlt => by have := (hc.neg_iff a b).mpr hlt; omega)

variable [Inhabited α] {key : α} {base : List α} {compar : α → α → Int}

/-- On an array ascending on its first `n` elements, the loop finds the key whenever the
    key lies in its window: the comparison with the middle element never discards the
    side that holds it. -/
theorem bsearch.loop_complete (hc : Compar_orders compar) {n : Nat}
    (hsorted : ∀ i j, i < j → j < n → base.getD i default < base.getD j default)
    {l u k : Nat} (hu : u ≤ n) (hl : l ≤ k) (hk : k < u) (hkey : base.getD k default = key) :
    (bsearch.loop key base compar l u).isSome := by
  fun_induction bsearch.loop key base compar l u with
  | case1 l u hlu idx comparison hneg ih =>
    -- the key is below the middle element, so it lies left of it
    have hlt : key < base.getD idx default := (hc.neg_iff _ _).mp hneg
    have hki : k < idx := Nat.lt_of_not_le fun hik => by
      rcases Nat.lt_or_eq_of_le hik with hik | rfl
      · exact absurd (hsorted _ _ hik (by omega)) (not_lt.mpr (hkey ▸ hlt.le))
      · exact absurd hkey (ne_of_gt hlt)
    exact ih (by omega) hl hki
  | case2 l u hlu idx comparison hneg hpos ih =>
    -- the key is above the middle element, so it lies right of it
    have hgt : base.getD idx default < key := (hc.pos_iff _ _).mp (by omega)
    have hik : idx < k := Nat.lt_of_not_le fun hki => by
      rcases Nat.lt_or_eq_of_le hki with hki | rfl
      · exact absurd (hsorted _ _ hki (by omega)) (not_lt.mpr (hkey ▸ hgt.le))
      · exact absurd hkey (ne_of_lt hgt)
    exact ih hu hik hk
  | case3 => rfl
  | case4 l u hlu => omega

theorem bsearch_sound (hc : Compar_orders compar) {n i : Nat} (h : bsearch key base n compar = some i) :
    i < n ∧ base.getD i default = key := by
  obtain ⟨-, hi, h0⟩ := bsearch.loop_sound h
  exact ⟨hi, (hc.eq_of_zero h0).symm⟩

/-- **`bsearch` finds the key exactly when it is there**, on an array ascending on its
    first `n` elements. -/
theorem bsearch_eq_none_iff (hc : Compar_orders compar) {n : Nat}
    (hsorted : ∀ i j, i < j → j < n → base.getD i default < base.getD j default) :
    bsearch key base n compar = none ↔ ∀ i < n, base.getD i default ≠ key := by
  constructor
  · intro h i hi hkey
    have := bsearch.loop_complete hc hsorted (le_refl n) (Nat.zero_le i) hi hkey
    rw [bsearch] at h
    rw [h] at this
    cases this
  · intro h
    cases hb : bsearch key base n compar with
    | none => rfl
    | some i =>
      obtain ⟨hi, hkey⟩ := bsearch_sound hc hb
      exact absurd hkey (h i hi)

end bsearch_sorted

end Libc
end AliSql
