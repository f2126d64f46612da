import Mathlib
import AliSql.Decimal.Parse

/-!
# `my_strtoll10` on a NUL-terminated string (`strings/my_strtoll10.c`)

`my_strtoll10` reads the text `[nptr, *endptr)` when `endptr` is given, and a NUL-terminated
string when it is `NULL`. The fixed-length case is `my_strtoll10` of `Decimal/Parse.lean`.
With `endptr = NULL` the function skips the blanks with no bound, returns `EDOM` at the NUL,
and otherwise sets `end = s + 65535` and falls through to the code of the fixed-length case.
That code never reads past the NUL, where every loop stops, so the NUL-terminated case is
the fixed-length one on the text up to `end`, padded with NULs (`my_strtoll10_no_endptr`).

The bound is a number of characters, not of digits: the loop that skips the leading zeros
stops at `end` like every other, so after 65535 zeros the function returns 0, whatever
digits follow (`my_strtoll10_many_zeros`).
-/

set_option autoImplicit false

namespace AliSql

open Libc

/-- `my_strtoll10(nptr, NULL, &error)` on the characters `str` before the NUL: the value,
the characters read, and `*error`. -/
def my_strtoll10_no_endptr (str : List Char) : Int × Nat × Int :=
  let s := (str.takeWhile fun c => c = ' ' || c = '\t').length
  if str.getD s '\x00' = '\x00' then (0, 0, MY_ERRNO_EDOM)
  -- This number must be big to guard against a lot of pre-zeros
  else my_strtoll10 ((str ++ List.replicate 65535 '\x00').take (s + 65535))

/-- Blanks and then zeros up to the end of the text read as 0, to the end. -/
theorem my_strtoll10_blanks_zeros {bl : List Char} (hbl : ∀ c ∈ bl, c = ' ' ∨ c = '\t')
    {m : Nat} (hm : 0 < m) :
    my_strtoll10 (bl ++ List.replicate m '0') = (0, bl.length + m, 0) := by
  obtain ⟨k, rfl⟩ : ∃ k, m = k + 1 := ⟨m - 1, by omega⟩
  have hblank : ((bl ++ List.replicate (k + 1) '0').takeWhile
      fun c => c = ' ' || c = '\t').length = bl.length :=
    takeWhile_length_of_run bl _ (by simpa using hbl) (by simp [List.replicate_succ])
  have hfirst : (bl ++ List.replicate (k + 1) '0').getD bl.length '\x00' = '0' := by
    rw [List.getD_append_right _ _ _ _ le_rfl, Nat.sub_self, List.replicate_succ,
      List.getD_cons_zero]
  have hlen : (bl ++ List.replicate (k + 1) '0').length = bl.length + (k + 1) := by simp
  simp only [my_strtoll10, hblank, hfirst, hlen]
  -- the zero loop runs to the end of the text, and the digit loops read nothing
  simp [my_strtoll10.digits, my_strtoll10.signed]

/-- The text up to `end`, after blanks and `n ≥ 65535` zeros: the blanks and 65535 zeros. -/
theorem no_endptr_window {bl rest : List Char} {n : Nat} (hn : 65535 ≤ n) :
    ((bl ++ List.replicate n '0' ++ rest) ++ List.replicate 65535 '\x00').take
      (bl.length + 65535) = bl ++ List.replicate 65535 '0' := by
  rw [List.append_assoc, List.append_assoc, List.take_append, List.take_of_length_le (by omega),
    Nat.add_sub_cancel_left, List.take_append_of_le_length (by simpa using hn), List.take_replicate,
    Nat.min_eq_left hn]

/-- **With `endptr = NULL`, 65535 leading zeros end the number**: blanks, then 65535 zeros or
more, read as 0 with no error, whatever digits follow the zeros. -/
theorem my_strtoll10_many_zeros {bl : List Char} (hbl : ∀ c ∈ bl, c = ' ' ∨ c = '\t')
    {n : Nat} (hn : 65535 ≤ n) (rest : List Char) :
    my_strtoll10_no_endptr (bl ++ List.replicate n '0' ++ rest) = (0, bl.length + 65535, 0) := by
  obtain ⟨k, rfl⟩ : ∃ k, n = k + 1 := ⟨n - 1, by omega⟩
  have hblank : ((bl ++ List.replicate (k + 1) '0' ++ rest).takeWhile
      fun c => c = ' ' || c = '\t').length = bl.length := by
    rw [List.append_assoc]
    exact takeWhile_length_of_run bl _ (by simpa using hbl) (by simp [List.replicate_succ])
  have hfirst : (bl ++ List.replicate (k + 1) '0' ++ rest).getD bl.length '\x00' = '0' := by
    rw [List.append_assoc, List.getD_append_right _ _ _ _ le_rfl, Nat.sub_self,
      List.replicate_succ, List.cons_append, List.getD_cons_zero]
  simp only [my_strtoll10_no_endptr, hblank, hfirst, no_endptr_window hn]
  simp only [show ('0' : Char) ≠ '\x00' by decide, if_false]
  exact my_strtoll10_blanks_zeros hbl (by omega)

theorem my_strtoll10_many_zeros_then_one :
    (∀ c ∈ ([] : List Char), c = ' ' ∨ c = '\t') ∧ 65535 ≤ 65535 ∧
      my_strtoll10_no_endptr ([] ++ List.replicate 65535 '0' ++ ['1']) =
        (0, ([] : List Char).length + 65535, 0) :=
  ⟨by simp, le_rfl, my_strtoll10_many_zeros (by simp) le_rfl ['1']⟩

end AliSql
