import Mathlib
import AliSql.Gtid.Text

/-!
# Writing GTID sets as text: `to_string` and `get_string_length`

`Gtid_set::to_string(buf, sf)` writes a set in one of three `String_format`s (the
default one, the SQL one with quotes, and the commented one of `mysqlbinlog`); the
separators and their lengths are fields of the format. `get_string_length(sf)`
predicts the length of that text by a counting pass of its own — digits of every
GNO, and how many SIDs, intervals and `start-end` intervals there are — and caches
the result, with the format, in the set until a mutator resets
`cached_string_length` to `-1`.

This file models both functions and proves:

* `to_string_length`: for a set in normal form over a well-formed `Sid_map`, the text
  `to_string` writes has exactly the length the counting pass adds up when its
  counters do not wrap (`Gtid_set.exact_string_length`);
* `string_length_of_lt`: below `2 ^ 31` characters no `int` of the counting pass
  wraps, and `Gtid_set.string_length` is that length;
* `get_string_length_of_cache_ok`: under the cache invariant `Gtid_set.Cache_ok`
  (the cache is empty, or holds the count for the format it names) the function
  returns that count;
* `read_text_to_string`: the default-format text reads back, SID by SID in SID order,
  to the set's own interval lists.

The two printing passes iterate differently: `to_string` walks the SIDNOs in SID
order (`Sid_map::get_sorted_sidno`), the counting pass walks `1 … max_sidno`. That
they count the same is a permutation argument (`Sid_map.WF.sorted_perm`).

`memcpy(s, sep, sep_length)` is modelled as the first `sep_length` characters of
`sep`; the three formats satisfy `String_format.WF` (every length is the length of
its string). The counters `n_sids`, `n_intervals`, `n_long_intervals` and
`total_interval_length` of the counting pass, its sum and its result are `int`s: every
`++`, `+=` and the final expression wrap through `to_int`, so a text of `2 ^ 31`
characters or more is counted wrong.
-/

set_option autoImplicit false

namespace AliSql
namespace Gtid

open IntervalList Libc

/-! ## Numbers -/

/-- `format_gno`, i.e. `ll2str(gno, s, 10, 1)`: with a positive radix the value is
    printed as unsigned. -/
def format_gno (gno : Int) : List Char := Nat.toDigits 10 (gno % 2 ^ 64).toNat

/-- The do-while loop of the static `get_string_length(rpl_gno)`, with fuel:
    divide by ten until zero, counting the rounds. -/
def count_digits : Nat → Nat → Nat
  | 0, _ => 0
  | fuel + 1, n => if n / 10 = 0 then 1 else count_digits fuel (n / 10) + 1

/-- The static `get_string_length(rpl_gno)`; its callers pass GNOs `≥ 1`. -/
def get_string_length (gno : Int) : Nat := count_digits (gno.toNat + 1) gno.toNat

theorem length_toDigitsCore :
    ∀ (fuel n : Nat) (ds : List Char),
      (Nat.toDigitsCore 10 fuel n ds).length = count_digits fuel n + ds.length
  | 0, _, _ => by simp [Nat.toDigitsCore, count_digits]
  | fuel + 1, n, ds => by
    simp only [Nat.toDigitsCore, count_digits]
    split
    · simp only [List.length_cons]
      omega
    · rw [length_toDigitsCore fuel (n / 10), List.length_cons]
      omega

/-- The digit count is the length of the printed GNO. -/
theorem get_string_length_eq {gno : Int} (h₀ : 0 ≤ gno) (h₁ : gno < 2 ^ 64) :
    get_string_length gno = (format_gno gno).length := by
  have hmod : gno % 2 ^ 64 = gno := Int.emod_eq_of_lt h₀ h₁
  rw [format_gno, hmod, Nat.toDigits, length_toDigitsCore, get_string_length]
  rfl

/-- A number of `k + 1` digits takes `k + 1` rounds. Induction on `k`. -/
theorem count_digits_of_lt : ∀ {k fuel n : Nat}, k < fuel → 10 ^ k ≤ n → n < 10 ^ (k + 1) →
    count_digits fuel n = k + 1
  | _, 0, _, hf, _, _ => absurd hf (Nat.not_lt_zero _)
  | 0, fuel + 1, n, _, _, h₁ => by
    rw [count_digits, if_pos (Nat.div_eq_of_lt (by simpa using h₁))]
  | k + 1, fuel + 1, n, hf, h₀, h₁ => by
    have hq₀ : 10 ^ k ≤ n / 10 := (Nat.le_div_iff_mul_le (by norm_num)).mpr (by
      rw [← pow_succ]
      exact h₀)
    have hq₁ : n / 10 < 10 ^ (k + 1) := (Nat.div_lt_iff_lt_mul (by norm_num)).mpr (by
      rw [← pow_succ]
      exact h₁)
    have hne : n / 10 ≠ 0 := Nat.pos_iff_ne_zero.mp (lt_of_lt_of_le (by positivity) hq₀)
    rw [count_digits, if_neg hne, count_digits_of_lt (by omega) hq₀ hq₁]

/-- A GNO of `k + 1` digits. -/
theorem get_string_length_of_lt {g : Int} {k : Nat} (h₀ : 10 ^ k ≤ g) (h₁ : g < 10 ^ (k + 1)) :
    get_string_length g = k + 1 := by
  obtain ⟨n, rfl⟩ : ∃ n : Nat, g = n :=
    ⟨g.toNat, (Int.toNat_of_nonneg (le_trans (by positivity) h₀)).symm⟩
  have hn₀ : 10 ^ k ≤ n := by exact_mod_cast h₀
  have hn₁ : n < 10 ^ (k + 1) := by exact_mod_cast h₁
  have hk : k < n + 1 := Nat.lt_succ_of_le ((Nat.lt_pow_self (by norm_num)).le.trans hn₀)
  rw [get_string_length, Int.toNat_natCast]
  exact count_digits_of_lt hk hn₀ hn₁

/-! ## `int` arithmetic -/

/-- A value converted to `int`: its low 32 bits, in two's complement. -/
def to_int (x : Int) : Int := x.bmod (2 ^ 32)

theorem to_int_of_lt {x : Int} (h₀ : 0 ≤ x) (h₁ : x < 2 ^ 31) : to_int x = x := by
  unfold to_int
  rw [Int.bmod_def, Int.emod_eq_of_lt h₀ (by omega), if_pos (by omega)]

/-- Converting to `int` keeps the value modulo `2 ^ 32`. -/
@[simp] theorem cast_to_int (x : Int) : ((to_int x : Int) : ZMod (2 ^ 32)) = x := by
  rw [ZMod.intCast_eq_intCast_iff']
  exact Int.bmod_emod

/-- Two values that agree modulo `2 ^ 32` convert to the same `int`. -/
theorem to_int_eq_to_int {a b : Int} (h : (a : ZMod (2 ^ 32)) = b) : to_int a = to_int b := by
  rw [ZMod.intCast_eq_intCast_iff'] at h
  unfold to_int
  rw [Int.bmod_def, Int.bmod_def, h]

/-- An `int` counter incremented: the earlier wrap is absorbed by the later one. -/
@[simp] theorem to_int_to_int_add (a b : Int) : to_int (to_int a + b) = to_int (a + b) :=
  Int.bmod_add_bmod

/-! ## String formats -/

/-- Every length field of a format is the length of its string. -/
structure String_format.WF (sf : String_format) : Prop where
  begin : sf.begin.length = sf.begin_length
  «end» : sf.end.length = sf.end_length
  sid_gno_separator : sf.sid_gno_separator.length = sf.sid_gno_separator_length
  gno_start_end_separator :
    sf.gno_start_end_separator.length = sf.gno_start_end_separator_length
  gno_gno_separator : sf.gno_gno_separator.length = sf.gno_gno_separator_length
  gno_sid_separator : sf.gno_sid_separator.length = sf.gno_sid_separator_length
  empty_set_string : ∀ e, sf.empty_set_string = some e → e.length = sf.empty_set_string_length

/-- `Gtid_set::default_string_format`. -/
def default_string_format : String_format :=
  ⟨[], [], ":".toList, "-".toList, ":".toList, ",\n".toList, some [], 0, 0, 1, 1, 1, 2, 0⟩

/-- `Gtid_set::sql_string_format`. -/
def sql_string_format : String_format :=
  ⟨"'".toList, "'".toList, ":".toList, "-".toList, ":".toList, "',\n'".toList,
    some "''".toList, 1, 1, 1, 1, 1, 4, 2⟩

/-- `Gtid_set::commented_string_format`. -/
def commented_string_format : String_format :=
  ⟨"# ".toList, [], ":".toList, "-".toList, ":".toList, ",\n# ".toList,
    some "# [empty]".toList, 2, 0, 1, 1, 1, 4, 9⟩

theorem String_format.wf_of_mem {sf : String_format}
    (h : sf ∈ [default_string_format, sql_string_format, commented_string_format]) :
    sf.WF := by
  simp only [List.mem_cons, List.not_mem_nil, or_false] at h
  rcases h with rfl | rfl | rfl <;>
    exact ⟨by decide, by decide, by decide, by decide, by decide, by decide,
      fun e he => by cases he; decide⟩

/-! ## `to_string` -/

/-- One interval as `to_string` writes it: `start`, and `-end` for an interval of more
    than one GNO. -/
def interval_text (sf : String_format) (iv : Interval) : List Char :=
  format_gno iv.start ++
    if iv.end > iv.start + 1 then
      sf.gno_start_end_separator.take sf.gno_start_end_separator_length ++
        format_gno (iv.end - 1)
    else []

/-- The intervals of one SIDNO, the first after `sid_gno_separator`, the others after
    `gno_gno_separator`. -/
def intervals_text (sf : String_format) : Bool → List Interval → List Char
  | _, [] => []
  | first_gno, iv :: rest =>
    (if first_gno then sf.sid_gno_separator.take sf.sid_gno_separator_length
      else sf.gno_gno_separator.take sf.gno_gno_separator_length) ++
      interval_text sf iv ++ intervals_text sf false rest

namespace Gtid_set

/-- `Gtid_set::is_empty`: no SIDNO has an interval. -/
def is_empty (s : Gtid_set) : Bool := s.intervals.all List.isEmpty

/-- The loop of `to_string` over the SIDNOs in SID order: every SIDNO the set
    contains is written as its SID and its intervals, after `gno_sid_separator`
    unless it is the first. -/
def sids_text (s : Gtid_set) (m : Sid_map) (sf : String_format) : Bool → List Nat → List Char
  | _, [] => []
  | first_sidno, sidno :: rest =>
    if s.contains_sidno sidno then
      (if first_sidno then [] else sf.gno_sid_separator.take sf.gno_sid_separator_length) ++
        (m.sidno_to_sid sidno).to_string ++ intervals_text sf true (s.ivs sidno) ++
        s.sids_text m sf false rest
    else s.sids_text m sf first_sidno rest

end Gtid_set

/-- The SIDNOs of a map in SID order, as `to_string` and `encode` walk them:
    `get_sorted_sidno(0)`, …, `get_sorted_sidno(max_sidno - 1)`. -/
def Sid_map.sorted_sidnos (m : Sid_map) : List Nat :=
  (List.range m.get_max_sidno).map m.get_sorted_sidno

namespace Gtid_set

/-- `Gtid_set::to_string(buf, sf)`: the text written to `buf`; its length is the
    return value. -/
def to_string (s : Gtid_set) (m : Sid_map) (sf : String_format) : List Char :=
  if sf.empty_set_string.isSome ∧ s.is_empty then
    (sf.empty_set_string.getD []).take sf.empty_set_string_length
  else
    sf.begin.take sf.begin_length ++ s.sids_text m sf true m.sorted_sidnos ++
      sf.end.take sf.end_length

end Gtid_set

/-! ## `get_string_length` -/

/-- The length that `get_string_length` adds up from its four counts, in numbers that do
    not wrap. -/
def String_format.count_length (sf : String_format) (n_sids n_intervals n_long_intervals
    total_interval_length : Nat) : Nat :=
  if n_sids = 0 ∧ sf.empty_set_string.isSome then sf.empty_set_string_length
  else
    sf.begin_length + sf.end_length +
      if n_sids > 0 then
        total_interval_length + n_sids * (TEXT_LENGTH + sf.sid_gno_separator_length) +
          (n_sids - 1) * sf.gno_sid_separator_length +
          (n_intervals - n_sids) * sf.gno_gno_separator_length +
          n_long_intervals * sf.gno_start_end_separator_length
      else 0

/-- The `int` counters of `get_string_length`. -/
structure String_counts where
  n_sids : Int
  n_intervals : Int
  n_long_intervals : Int
  total_interval_length : Int

/-- The do-while loop of `get_string_length` over the intervals of one SIDNO; every `++`
    and `+=` wraps as an `int`. -/
def count_intervals (c : String_counts) : List Interval → String_counts
  | [] => c
  | iv :: rest =>
    let c := { c with
      n_intervals := to_int (c.n_intervals + 1)
      total_interval_length := to_int (c.total_interval_length + get_string_length iv.start) }
    let c := if iv.end - 1 > iv.start then
        { c with
          n_long_intervals := to_int (c.n_long_intervals + 1)
          total_interval_length :=
            to_int (c.total_interval_length + get_string_length (iv.end - 1)) }
      else c
    count_intervals c rest

namespace Gtid_set

/-- One round of the SIDNO loop of `get_string_length`. -/
def count_sidno (s : Gtid_set) (c : String_counts) (sidno : Nat) : String_counts :=
  if (s.ivs sidno).isEmpty then c
  else count_intervals { c with n_sids := to_int (c.n_sids + 1) } (s.ivs sidno)

/-- The length `get_string_length(sf)` counts when the cache does not answer, in `int`. The
    right-hand side of `cached_string_length +=` is an `int` expression; its own wraps are
    absorbed by the wrap of the sum. -/
def string_length (s : Gtid_set) (sf : String_format) : Int :=
  let c := (List.range' 1 s.get_max_sidno).foldl s.count_sidno ⟨0, 0, 0, 0⟩
  if c.n_sids = 0 ∧ sf.empty_set_string.isSome then sf.empty_set_string_length
  else
    let len := to_int (sf.begin_length + sf.end_length)
    if c.n_sids > 0 then
      to_int (len + (c.total_interval_length + c.n_sids * (TEXT_LENGTH + sf.sid_gno_separator_length) +
        (c.n_sids - 1) * sf.gno_sid_separator_length +
        (c.n_intervals - c.n_sids) * sf.gno_gno_separator_length +
        c.n_long_intervals * sf.gno_start_end_separator_length))
    else len

/-- `Gtid_set::get_string_length(sf)`: the cached length when it is cached for this
    format, otherwise the counted one, which is then cached. -/
def get_string_length (s : Gtid_set) (sf : String_format) : Int × Gtid_set :=
  if s.cached_string_length = -1 ∨ s.cached_string_format ≠ some sf then
    (s.string_length sf,
      { s with
        cached_string_length := s.string_length sf
        cached_string_format := some sf })
  else (s.cached_string_length, s)

/-- The cache invariant: nothing cached, or the count for the format that is
    cached. -/
def Cache_ok (s : Gtid_set) : Prop :=
  s.cached_string_length = -1 ∨
    ∃ sf, s.cached_string_format = some sf ∧ s.cached_string_length = s.string_length sf

/-- **A valid cache answers with the count.** -/
theorem get_string_length_of_cache_ok {s : Gtid_set} (h : s.Cache_ok) (sf : String_format) :
    (s.get_string_length sf).1 = s.string_length sf := by
  unfold get_string_length
  split
  · rfl
  · rename_i hc
    simp only [not_or, not_not] at hc
    rcases h with h | ⟨sf', hsf', hlen⟩
    · exact absurd h hc.1
    · -- the cached format is `sf` itself
      obtain rfl : sf' = sf := Option.some.inj (hsf'.symm.trans hc.2)
      exact hlen

/-- `get_string_length` keeps the cache valid and the intervals as they are. -/
theorem get_string_length_cache_ok {s : Gtid_set} (h : s.Cache_ok) (sf : String_format) :
    (s.get_string_length sf).2.Cache_ok ∧
      (s.get_string_length sf).2.intervals = s.intervals := by
  unfold get_string_length
  split
  · -- the count reads only the intervals, which the update leaves alone
    exact ⟨Or.inr ⟨sf, rfl, rfl⟩, rfl⟩
  · exact ⟨h, rfl⟩

end Gtid_set

/-! ## The count, interval list by interval list -/

/-- The digits `get_string_length` counts for one interval. -/
def interval_digits (iv : Interval) : Nat :=
  get_string_length iv.start + if iv.end - 1 > iv.start then get_string_length (iv.end - 1) else 0

/-- `1` for an interval written as `start-end`. -/
def long_count (iv : Interval) : Nat := if iv.end - 1 > iv.start then 1 else 0

/-- `1` for a SIDNO with intervals. -/
def sid_count (l : List Interval) : Nat := if l.isEmpty then 0 else 1

/-- One interval of the do-while loop: each counter is the `int` of its running sum. -/
theorem count_intervals_cons (n a b d : Int) (iv : Interval) (rest : List Interval) :
    count_intervals ⟨n, to_int a, to_int b, to_int d⟩ (iv :: rest) =
      count_intervals ⟨n, to_int (a + 1), to_int (b + long_count iv),
        to_int (d + interval_digits iv)⟩ rest := by
  rw [count_intervals]
  congr 1
  by_cases hlong : iv.end - 1 > iv.start
  · simp only [hlong, if_true, long_count, interval_digits, String_counts.mk.injEq, true_and,
      to_int_to_int_add]
    push_cast
    exact ⟨rfl, by rw [add_assoc]⟩
  · simp only [hlong, if_false, long_count, interval_digits, to_int_to_int_add, Nat.cast_zero,
      add_zero]

theorem count_intervals_eq (n : Int) :
    ∀ (l : List Interval) (a b d : Int),
      count_intervals ⟨n, to_int a, to_int b, to_int d⟩ l =
        ⟨n, to_int (a + l.length), to_int (b + ((l.map long_count).sum : Nat)),
          to_int (d + ((l.map interval_digits).sum : Nat))⟩
  | [], _, _, _ => by simp [count_intervals]
  | iv :: rest, a, b, d => by
    rw [count_intervals_cons, count_intervals_eq n rest]
    simp only [List.length_cons, List.map_cons, List.sum_cons, Nat.cast_add, Nat.cast_one,
      String_counts.mk.injEq, true_and]
    refine ⟨by ring_nf, by ring_nf, by ring_nf⟩

namespace Gtid_set

/-- The SIDNO loop: each counter is the `int` of its running sum. Induction on the SIDNOs. -/
theorem foldl_count_sidno (s : Gtid_set) :
    ∀ (L : List Nat) (a₀ a b d : Int),
      L.foldl s.count_sidno ⟨to_int a₀, to_int a, to_int b, to_int d⟩ =
        ⟨to_int (a₀ + ((L.map fun j => sid_count (s.ivs j)).sum : Nat)),
          to_int (a + ((L.map fun j => (s.ivs j).length).sum : Nat)),
          to_int (b + ((L.map fun j => ((s.ivs j).map long_count).sum).sum : Nat)),
          to_int (d + ((L.map fun j => ((s.ivs j).map interval_digits).sum).sum : Nat))⟩
  | [], _, _, _, _ => by simp
  | j :: L, a₀, a, b, d => by
    rw [List.foldl_cons]
    -- the round of `j`, with the sums of its list added
    have hround : s.count_sidno ⟨to_int a₀, to_int a, to_int b, to_int d⟩ j =
        ⟨to_int (a₀ + sid_count (s.ivs j)), to_int (a + (s.ivs j).length),
          to_int (b + ((s.ivs j).map long_count).sum),
          to_int (d + ((s.ivs j).map interval_digits).sum)⟩ := by
      unfold count_sidno
      split
      · rename_i he
        have hnil : s.ivs j = [] := List.isEmpty_iff.mp he
        simp [hnil, sid_count]
      · rename_i he
        simp only [sid_count, he, if_false, Bool.false_eq_true, to_int_to_int_add, Nat.cast_one]
        exact count_intervals_eq _ _ _ _ _
    rw [hround, foldl_count_sidno s L]
    simp only [List.map_cons, List.sum_cons, Nat.cast_add, String_counts.mk.injEq]
    refine ⟨by ring_nf, by ring_nf, by ring_nf, by ring_nf⟩

/-- The SIDNOs `1 … max_sidno` walk the interval lists in order. -/
theorem map_ivs_range' (s : Gtid_set) : (List.range' 1 s.get_max_sidno).map s.ivs = s.intervals := by
  apply List.ext_getElem
  · simp [get_max_sidno]
  · intro i h₁ h₂
    simp only [List.getElem_map, List.getElem_range', ivs, Nat.one_mul]
    rw [show 1 + i - 1 = i by omega, List.getD_eq_getElem?_getD, List.getElem?_eq_getElem h₂]
    rfl

theorem sum_range'_ivs (s : Gtid_set) (F : List Interval → Nat) :
    ((List.range' 1 s.get_max_sidno).map fun j => F (s.ivs j)).sum = (s.intervals.map F).sum := by
  rw [← map_ivs_range', List.map_map]
  rfl

/-- The counters after the SIDNO loop of `get_string_length`: the `int`s of sums over the
    lists. -/
theorem count_all (s : Gtid_set) :
    (List.range' 1 s.get_max_sidno).foldl s.count_sidno ⟨0, 0, 0, 0⟩ =
      ⟨to_int ((s.intervals.map sid_count).sum : Nat),
        to_int ((s.intervals.map List.length).sum : Nat),
        to_int ((s.intervals.map fun l => (l.map long_count).sum).sum : Nat),
        to_int ((s.intervals.map fun l => (l.map interval_digits).sum).sum : Nat)⟩ := by
  have h0 : (⟨0, 0, 0, 0⟩ : String_counts) = ⟨to_int 0, to_int 0, to_int 0, to_int 0⟩ := rfl
  rw [h0, foldl_count_sidno, sum_range'_ivs s sid_count, sum_range'_ivs s List.length,
    sum_range'_ivs s (fun l => (l.map long_count).sum),
    sum_range'_ivs s (fun l => (l.map interval_digits).sum)]
  simp only [zero_add]

/-- What the counting pass of `get_string_length` computes with counters that do not wrap:
    the sums over the interval lists, with no `int` in between. `to_string_length` shows
    that it is the length of the text. -/
def exact_string_length (s : Gtid_set) (sf : String_format) : Nat :=
  sf.count_length (s.intervals.map sid_count).sum (s.intervals.map List.length).sum
    (s.intervals.map fun l => (l.map long_count).sum).sum
    (s.intervals.map fun l => (l.map interval_digits).sum).sum

/-- The count reads only the interval lists, and empty lists count for nothing. -/
theorem string_length_of_append_empty {s t : Gtid_set} {n : Nat}
    (h : t.intervals = s.intervals ++ List.replicate n []) (sf : String_format) :
    t.string_length sf = s.string_length sf := by
  unfold string_length
  rw [count_all, count_all, h]
  simp [sid_count]

/-- A set is empty exactly when no interval list counts as a SID. -/
theorem is_empty_iff (s : Gtid_set) : s.is_empty = true ↔ (s.intervals.map sid_count).sum = 0 := by
  unfold is_empty
  induction s.intervals with
  | nil => simp
  | cons l ls ih =>
    simp only [List.all_cons, Bool.and_eq_true, ih, List.map_cons, List.sum_cons, sid_count]
    split <;> simp_all

theorem contains_sidno_eq (s : Gtid_set) (j : Nat) :
    s.contains_sidno j = !(s.ivs j).isEmpty := by
  unfold contains_sidno
  by_cases h : j ≤ s.get_max_sidno
  · simp [h]
  · rw [ivs_of_gt (by omega)]
    simp [h]

end Gtid_set

/-! ## The length of the text -/

section Length

variable {sf : String_format}

/-- A separator copied with its own length is the whole separator. -/
theorem take_length_of_eq {l : List Char} {n : Nat} (h : l.length = n) : l.take n = l :=
  List.take_of_length_le (le_of_eq h)

theorem interval_text_length (hsf : sf.WF) {iv : Interval} (h₁ : 1 ≤ iv.start)
    (h₂ : iv.start < iv.end) (h₃ : iv.end ≤ MAX_GNO) :
    (interval_text sf iv).length =
      interval_digits iv + long_count iv * sf.gno_start_end_separator_length := by
  have hmax : iv.end < 2 ^ 64 := lt_of_le_of_lt h₃ (by simp [MAX_GNO])
  have hs := get_string_length_eq (show 0 ≤ iv.start by omega) (by omega)
  unfold interval_text interval_digits long_count
  by_cases hlong : iv.end - 1 > iv.start
  · have he := get_string_length_eq (show 0 ≤ iv.end - 1 by omega) (by omega)
    have hiff : iv.end > iv.start + 1 := by omega
    simp only [hiff, hlong, if_true, List.length_append,
      take_length_of_eq hsf.gno_start_end_separator, hsf.gno_start_end_separator, ← hs, ← he]
    omega
  · have hiff : ¬iv.end > iv.start + 1 := by omega
    simp only [hiff, hlong, if_false, List.length_append, List.length_nil, ← hs]
    omega

theorem intervals_text_false_length (hsf : sf.WF) :
    ∀ {l : List Interval}, Normal l →
      (intervals_text sf false l).length =
        l.length * sf.gno_gno_separator_length + (l.map interval_digits).sum +
          (l.map long_count).sum * sf.gno_start_end_separator_length
  | [], _ => by simp [intervals_text]
  | iv :: rest, hl => by
    have hb := hl.bounds List.mem_cons_self
    simp only [intervals_text, Bool.false_eq_true, if_false, List.length_append,
      take_length_of_eq hsf.gno_gno_separator, hsf.gno_gno_separator,
      interval_text_length hsf hb.1 hl.sep.head_lt hb.2,
      intervals_text_false_length hsf hl.tail, List.length_cons, List.map_cons, List.sum_cons]
    ring

theorem intervals_text_true_length (hsf : sf.WF) {iv : Interval} {rest : List Interval}
    (hl : Normal (iv :: rest)) :
    (intervals_text sf true (iv :: rest)).length =
      sf.sid_gno_separator_length + rest.length * sf.gno_gno_separator_length +
        ((iv :: rest).map interval_digits).sum +
        ((iv :: rest).map long_count).sum * sf.gno_start_end_separator_length := by
  have hb := hl.bounds List.mem_cons_self
  simp only [intervals_text, if_true, List.length_append,
    take_length_of_eq hsf.sid_gno_separator, hsf.sid_gno_separator,
    interval_text_length hsf hb.1 hl.sep.head_lt hb.2,
    intervals_text_false_length hsf hl.tail, List.map_cons, List.sum_cons]
  ring

/-- What one SIDNO's list adds to the text: its separator, its SID and its
    intervals, or nothing for an empty list. -/
def sid_text_length (sf : String_format) (l : List Interval) : Nat :=
  if l.isEmpty then 0
  else sf.gno_sid_separator_length + TEXT_LENGTH + (intervals_text sf true l).length

/-- The text of one SIDNO against the counters: what `get_string_length` adds for
    it, with the `gno_gno_separator` of its first interval added back. -/
theorem sid_text_length_add (hsf : sf.WF) {l : List Interval} (hl : Normal l) :
    sid_text_length sf l + sid_count l * sf.gno_gno_separator_length =
      sid_count l * (sf.gno_sid_separator_length + TEXT_LENGTH + sf.sid_gno_separator_length) +
        l.length * sf.gno_gno_separator_length + (l.map interval_digits).sum +
        (l.map long_count).sum * sf.gno_start_end_separator_length := by
  cases l with
  | nil => simp [sid_text_length, sid_count]
  | cons iv rest =>
    simp only [sid_text_length, sid_count, List.isEmpty_cons, Bool.false_eq_true, if_false,
      intervals_text_true_length hsf hl, List.length_cons]
    ring

theorem sids_text_false_length (hsf : sf.WF) (s : Gtid_set) (m : Sid_map) :
    ∀ L : List Nat,
      (s.sids_text m sf false L).length = (L.map fun j => sid_text_length sf (s.ivs j)).sum
  | [] => rfl
  | j :: L => by
    have ih := sids_text_false_length hsf s m L
    simp only [Gtid_set.sids_text, Gtid_set.contains_sidno_eq, List.map_cons, List.sum_cons]
    cases he : (s.ivs j).isEmpty with
    | true =>
      have h0 : sid_text_length sf (s.ivs j) = 0 := by simp [sid_text_length, he]
      simp only [Bool.not_true, Bool.false_eq_true, if_false, h0, ih, Nat.zero_add]
    | false =>
      have h1 : sid_text_length sf (s.ivs j) = sf.gno_sid_separator_length + TEXT_LENGTH +
          (intervals_text sf true (s.ivs j)).length := by simp [sid_text_length, he]
      simp only [Bool.not_false, if_true, Bool.false_eq_true, if_false, List.length_append,
        take_length_of_eq hsf.gno_sid_separator, hsf.gno_sid_separator, Uuid.to_string_length,
        ih, h1]

theorem sids_text_true_length (hsf : sf.WF) (s : Gtid_set) (m : Sid_map) :
    ∀ L : List Nat,
      (s.sids_text m sf true L).length +
          (if (L.map fun j => sid_count (s.ivs j)).sum = 0 then 0
            else sf.gno_sid_separator_length) =
        (L.map fun j => sid_text_length sf (s.ivs j)).sum
  | [] => rfl
  | j :: L => by
    simp only [Gtid_set.sids_text, Gtid_set.contains_sidno_eq, List.map_cons, List.sum_cons]
    cases he : (s.ivs j).isEmpty with
    | true =>
      have h0 : sid_text_length sf (s.ivs j) = 0 := by simp [sid_text_length, he]
      have c0 : sid_count (s.ivs j) = 0 := by simp [sid_count, he]
      simp only [Bool.not_true, Bool.false_eq_true, if_false, h0, c0, Nat.zero_add]
      exact sids_text_true_length hsf s m L
    | false =>
      have h1 : sid_text_length sf (s.ivs j) = sf.gno_sid_separator_length + TEXT_LENGTH +
          (intervals_text sf true (s.ivs j)).length := by simp [sid_text_length, he]
      have c1 : sid_count (s.ivs j) = 1 := by simp [sid_count, he]
      have hne : 1 + (L.map fun j => sid_count (s.ivs j)).sum ≠ 0 := by omega
      simp only [Bool.not_false, if_true, List.length_append, List.length_nil,
        Uuid.to_string_length, sids_text_false_length hsf s m L, h1, c1, hne, if_false]
      omega

theorem sum_sid_text_length (hsf : sf.WF) :
    ∀ ls : List (List Interval), (∀ l ∈ ls, Normal l) →
      (ls.map (sid_text_length sf)).sum + (ls.map sid_count).sum * sf.gno_gno_separator_length =
        (ls.map sid_count).sum *
            (sf.gno_sid_separator_length + TEXT_LENGTH + sf.sid_gno_separator_length) +
          (ls.map List.length).sum * sf.gno_gno_separator_length +
          (ls.map fun l => (l.map interval_digits).sum).sum +
          (ls.map fun l => (l.map long_count).sum).sum * sf.gno_start_end_separator_length
  | [], _ => by simp
  | l :: ls, h => by
    have hl := sid_text_length_add hsf (h l List.mem_cons_self)
    have ih := sum_sid_text_length hsf ls (fun l' hl' => h l' (List.mem_cons_of_mem _ hl'))
    simp only [List.map_cons, List.sum_cons]
    linear_combination hl + ih

end Length

theorem sum_sid_count_le : ∀ ls : List (List Interval),
    (ls.map sid_count).sum ≤ (ls.map List.length).sum
  | [] => le_rfl
  | l :: ls => by
    have ih := sum_sid_count_le ls
    have hl : sid_count l ≤ l.length := by
      cases l <;> simp [sid_count]
    simp only [List.map_cons, List.sum_cons]
    omega

theorem eq_nil_of_sum_sid_count_eq_zero :
    ∀ {ls : List (List Interval)}, (ls.map sid_count).sum = 0 → ∀ l ∈ ls, l = []
  | [], _, _, h => absurd h List.not_mem_nil
  | l :: ls, hs, l', hl' => by
    simp only [List.map_cons, List.sum_cons] at hs
    rcases List.mem_cons.mp hl' with rfl | hl'
    · cases l' with
      | nil => rfl
      | cons _ _ => simp [sid_count] at hs
    · exact eq_nil_of_sum_sid_count_eq_zero (by omega) l' hl'

theorem Sid_map.sorted_sidnos_eq {m : Sid_map} (hm : m.WF) : m.sorted_sidnos = m.sorted := by
  have hlen : m.sorted.length = m.get_max_sidno := by
    rw [hm.sorted_perm.length_eq, List.length_range']
    rfl
  apply List.ext_getElem
  · simp [Sid_map.sorted_sidnos, hlen]
  · intro i h₁ h₂
    simp [Sid_map.sorted_sidnos, Sid_map.get_sorted_sidno, List.getD_eq_getElem?_getD, h₂]

/-- A sum over the SIDNOs in SID order is the sum over the set's interval lists, for
    a quantity that is zero on an empty list. -/
theorem sum_sorted_sidnos {s : Gtid_set} {m : Sid_map} (hm : m.WF)
    (hmax : s.get_max_sidno ≤ m.get_max_sidno) (F : List Interval → Nat) (hF : F [] = 0) :
    (m.sorted_sidnos.map fun j => F (s.ivs j)).sum = (s.intervals.map F).sum := by
  rw [Sid_map.sorted_sidnos_eq hm, (hm.sorted_perm.map _).sum_eq]
  have hsplit : List.range' 1 m.sids.length = List.range' 1 s.get_max_sidno ++
      List.range' (1 + 1 * s.get_max_sidno) (m.sids.length - s.get_max_sidno) := by
    rw [List.range'_append]
    congr 1
    simp only [Sid_map.get_max_sidno] at hmax
    omega
  -- the SIDNOs past the set's last one contribute nothing
  have hzero : ((List.range' (1 + 1 * s.get_max_sidno) (m.sids.length - s.get_max_sidno)).map
      fun j => F (s.ivs j)).sum = 0 := by
    apply List.sum_eq_zero
    intro x hx
    obtain ⟨j, hj, rfl⟩ := List.mem_map.mp hx
    rw [List.mem_range'] at hj
    rw [Gtid_set.ivs_of_gt (by omega), hF]
  rw [hsplit, List.map_append, List.sum_append, Gtid_set.sum_range'_ivs, hzero, Nat.add_zero]

/-- **`to_string` writes exactly the counted length.** For a set in normal form over a
    well-formed `Sid_map` that names all its SIDNOs, and a format whose lengths are
    those of its strings. -/
theorem to_string_length {s : Gtid_set} {m : Sid_map} {sf : String_format} (hs : s.NF)
    (hm : m.WF) (hmax : s.get_max_sidno ≤ m.get_max_sidno) (hsf : sf.WF) :
    (s.to_string m sf).length = s.exact_string_length sf := by
  have hsids := sids_text_true_length hsf s m m.sorted_sidnos
  rw [sum_sorted_sidnos hm hmax sid_count rfl,
    sum_sorted_sidnos hm hmax (sid_text_length sf) rfl] at hsids
  have hsum := sum_sid_text_length hsf s.intervals hs
  have hle := sum_sid_count_le s.intervals
  have hempty := Gtid_set.is_empty_iff s
  unfold Gtid_set.to_string Gtid_set.exact_string_length String_format.count_length
  generalize hN : (s.intervals.map sid_count).sum = N at hsids hsum hle hempty
  by_cases hE : sf.empty_set_string.isSome ∧ s.is_empty
  · obtain ⟨e, he⟩ := Option.isSome_iff_exists.mp hE.1
    have hlen := hsf.empty_set_string e he
    simp only [hE, and_self, if_true, hempty.mp hE.2, he, Option.getD_some,
      take_length_of_eq hlen, hlen, Option.isSome_some]
  · have hE' : ¬(N = 0 ∧ sf.empty_set_string.isSome = true) :=
      fun h => hE ⟨h.2, hempty.mpr h.1⟩
    simp only [hE, hE', if_false, List.length_append, take_length_of_eq hsf.begin,
      take_length_of_eq hsf.end, hsf.begin, hsf.end]
    by_cases hN0 : N = 0
    · -- no SIDNO has an interval: the text is `begin` and `end`
      have hnil := eq_nil_of_sum_sid_count_eq_zero (hN ▸ hN0)
      have hzero : (s.intervals.map (sid_text_length sf)).sum = 0 :=
        List.sum_eq_zero fun x hx => by
          obtain ⟨l, hl, rfl⟩ := List.mem_map.mp hx
          rw [hnil l hl]
          rfl
      simp only [hN0, if_true, Nat.add_zero, hzero, gt_iff_lt, lt_self_iff_false,
        if_false] at hsids ⊢
      omega
    · obtain ⟨a, rfl⟩ : ∃ a, N = a + 1 := ⟨N - 1, by omega⟩
      obtain ⟨b, hb⟩ : ∃ b, (s.intervals.map List.length).sum = a + 1 + b :=
        ⟨(s.intervals.map List.length).sum - (a + 1), by omega⟩
      simp only [hN0, if_false, show a + 1 > 0 by omega, if_true, Nat.add_sub_cancel,
        hb, Nat.add_sub_cancel_left] at hsids ⊢
      rw [hb] at hsum
      linear_combination hsids + hsum

/-! ## The `int` count against the length -/

/-- A text of `n_sids` SIDs has at least `36` characters for each of them. -/
theorem String_format.le_count_length (sf : String_format) (N I L T : Nat) :
    N ≤ sf.count_length N I L T ∨ N = 0 := by
  unfold String_format.count_length
  by_cases hN : N = 0
  · exact Or.inr hN
  · left
    rw [if_neg (fun h => hN h.1), if_pos (Nat.pos_of_ne_zero hN)]
    have : N ≤ N * (TEXT_LENGTH + sf.sid_gno_separator_length) :=
      Nat.le_mul_of_pos_right _ (by simp [TEXT_LENGTH])
    omega

/-- With fewer than `2 ^ 31` SIDs and at least one, the `int` count is the exact count
    converted to `int`: every wrap of a counter is absorbed by the wrap of the sum. -/
theorem Gtid_set.string_length_of_sids {s : Gtid_set} {sf : String_format}
    (h₀ : 0 < (s.intervals.map sid_count).sum) (h₁ : (s.intervals.map sid_count).sum < 2 ^ 31) :
    s.string_length sf = to_int (s.exact_string_length sf) := by
  have hle := sum_sid_count_le s.intervals
  unfold Gtid_set.string_length Gtid_set.exact_string_length
  rw [Gtid_set.count_all]
  generalize (s.intervals.map sid_count).sum = N at hle h₀ h₁ ⊢
  generalize (s.intervals.map List.length).sum = I at hle ⊢
  have htN : to_int (N : Int) = N := to_int_of_lt (by omega) (by omega)
  unfold String_format.count_length
  simp only [htN, Nat.cast_eq_zero, Nat.pos_iff_ne_zero.mp h₀, false_and, if_false, gt_iff_lt,
    Nat.cast_pos, h₀, if_true]
  apply to_int_eq_to_int
  simp only [Int.cast_add, Int.cast_mul, Int.cast_sub, Int.cast_one, cast_to_int]
  push_cast [Nat.cast_sub h₀, Nat.cast_sub hle]
  ring

/-- **Below `2 ^ 31` characters the `int` count is the length**: no counter and no sum of
    `get_string_length` wraps. -/
theorem Gtid_set.string_length_of_lt {s : Gtid_set} {sf : String_format}
    (h : s.exact_string_length sf < 2 ^ 31) : s.string_length sf = s.exact_string_length sf := by
  by_cases hN : (s.intervals.map sid_count).sum = 0
  · -- no SIDNO has an interval: the empty-set text, or `begin` and `end`
    have h0 : to_int 0 = 0 := by decide
    unfold Gtid_set.string_length Gtid_set.exact_string_length String_format.count_length at *
    rw [Gtid_set.count_all, hN]
    rw [hN] at h
    by_cases he : sf.empty_set_string.isSome
    · simp [h0, he]
    · simp only [Nat.cast_zero, h0, he, Bool.false_eq_true, and_false, if_false, gt_iff_lt,
        lt_self_iff_false, Nat.add_zero] at h ⊢
      rw [to_int_of_lt (by omega) (by omega)]
      push_cast
      ring
  · have hN31 : (s.intervals.map sid_count).sum < 2 ^ 31 := by
      rcases String_format.le_count_length sf _ (s.intervals.map List.length).sum
        (s.intervals.map fun l => (l.map long_count).sum).sum
        (s.intervals.map fun l => (l.map interval_digits).sum).sum with hle | h0
      · exact lt_of_le_of_lt hle h
      · exact absurd h0 hN
    rw [Gtid_set.string_length_of_sids (Nat.pos_of_ne_zero hN) hN31,
      to_int_of_lt (by omega) (by exact_mod_cast h)]

/-- The `n` GNOs `10 ^ 18 + 2 i`, `i < n`, each an interval of its own: nineteen digits
    each in the text. -/
def wide_intervals (n : Nat) : List Interval :=
  (List.range n).map fun i : Nat => ⟨10 ^ 18 + 2 * (i : Int), 10 ^ 18 + 2 * (i : Int) + 1⟩

theorem wide_intervals_normal {n : Nat} (hn : 10 ^ 18 + 2 * (n : Int) ≤ MAX_GNO) :
    Normal (wide_intervals n) := by
  refine ⟨⟨?_, ?_⟩, ?_⟩
  · simp only [wide_intervals, List.forall_mem_map]
    intro i _
    omega
  · rw [wide_intervals, List.pairwise_map]
    exact (List.pairwise_lt_range).imp fun h => by dsimp only; omega
  · simp only [wide_intervals, List.forall_mem_map, List.mem_range]
    intro i hi
    constructor <;> omega

/-- A count that is the same on every interval of `wide_intervals n` adds up to `n` times
    that value. -/
theorem sum_map_wide_intervals {n c : Nat} {f : Interval → Nat}
    (hf : ∀ i < n, f ⟨10 ^ 18 + 2 * (i : Int), 10 ^ 18 + 2 * (i : Int) + 1⟩ = c) :
    ((wide_intervals n).map f).sum = n * c := by
  have hrep : (wide_intervals n).map f = List.replicate n c := by
    refine List.eq_replicate_iff.mpr ⟨by simp [wide_intervals], fun b hb => ?_⟩
    simp only [wide_intervals, List.map_map, List.mem_map, List.mem_range,
      Function.comp_apply] at hb
    obtain ⟨i, hi, rfl⟩ := hb
    exact hf i hi
  rw [hrep, List.sum_replicate, smul_eq_mul]

/-- A set whose SIDNO 1 holds `107374181` GNOs of nineteen digits: its default text has
    `2 ^ 31 + 8` characters. -/
def long_text_set : Gtid_set := ⟨[wide_intervals 107374181], -1, none, Interval_memory.init⟩

/-- **`get_string_length` wraps** on a text of `2 ^ 31 + 8` characters: `to_string` writes
    them all, and the count, in `int`, is `8 - 2 ^ 31`. -/
theorem get_string_length_overflow :
    long_text_set.NF ∧ (⟨[Uuid.zero], [1]⟩ : Sid_map).WF ∧
      long_text_set.get_max_sidno ≤ (⟨[Uuid.zero], [1]⟩ : Sid_map).get_max_sidno ∧
      (long_text_set.to_string ⟨[Uuid.zero], [1]⟩ default_string_format).length = 2 ^ 31 + 8 ∧
      (long_text_set.get_string_length default_string_format).1 = 8 - 2 ^ 31 := by
  have hnf : long_text_set.NF := by
    intro l hl
    rw [long_text_set, List.mem_singleton] at hl
    rw [hl]
    exact wide_intervals_normal (by norm_num [MAX_GNO])
  have hm : (⟨[Uuid.zero], [1]⟩ : Sid_map).WF := ⟨by decide, by decide⟩
  have hmax : long_text_set.get_max_sidno ≤ (⟨[Uuid.zero], [1]⟩ : Sid_map).get_max_sidno :=
    le_refl 1
  -- the four sums of the counting pass: one SID, `n` intervals, none long, `19 n` digits
  have hsid : (long_text_set.intervals.map sid_count).sum = 1 := by
    simp [long_text_set, sid_count, wide_intervals]
  have hlong : (long_text_set.intervals.map fun l => (l.map long_count).sum).sum = 0 := by
    simp only [long_text_set, List.map_singleton, List.sum_singleton]
    rw [sum_map_wide_intervals (c := 0) fun i _ => by simp [long_count]]
  have hdigits :
      (long_text_set.intervals.map fun l => (l.map interval_digits).sum).sum = 107374181 * 19 := by
    simp only [long_text_set, List.map_singleton, List.sum_singleton]
    refine sum_map_wide_intervals fun i hi => ?_
    simp only [interval_digits, add_sub_cancel_right, gt_iff_lt, lt_self_iff_false, if_false,
      Nat.add_zero]
    exact get_string_length_of_lt (by omega) (by norm_num; omega)
  have hexact : long_text_set.exact_string_length default_string_format = 2 ^ 31 + 8 := by
    rw [Gtid_set.exact_string_length, hsid, hlong, hdigits]
    simp [long_text_set, wide_intervals]
    decide
  refine ⟨hnf, hm, hmax, ?_, ?_⟩
  · rw [to_string_length hnf hm hmax (String_format.wf_of_mem (by simp)), hexact]
  · have hcount : long_text_set.string_length default_string_format = 8 - 2 ^ 31 := by
      rw [Gtid_set.string_length_of_sids (by omega) (by omega), hexact]
      decide
    simpa [Gtid_set.get_string_length, long_text_set] using hcount

/-! ## The cache over mutations

Every mutator writes interval lists through `add_gno_interval` or
`remove_gno_interval`, which reset `cached_string_length`, or only grows the array
with `ensure_sidno`, which keeps the cache and adds nothing to the count. So a cached
length stays the count of the current set over any sequence of mutations: `Cache_step`
is a `Write_relation`, and `clear` and the chunk `add_gtid_text` allocates are checked on
their own. -/

namespace Gtid_set

/-- What a mutator does to the cache: it resets `cached_string_length`, or it keeps
    the cache and only appends empty lists. -/
def Cache_step (s t : Gtid_set) : Prop :=
  t.cached_string_length = -1 ∨
    t.cached_string_length = s.cached_string_length ∧
      t.cached_string_format = s.cached_string_format ∧
      ∃ n, t.intervals = s.intervals ++ List.replicate n []

namespace Cache_step

@[refl] theorem refl (s : Gtid_set) : Cache_step s s := Or.inr ⟨rfl, rfl, 0, by simp⟩

theorem trans {s t u : Gtid_set} (h₁ : Cache_step s t) (h₂ : Cache_step t u) :
    Cache_step s u := by
  rcases h₂ with h₂ | ⟨hc, hf, n, hn⟩
  · exact Or.inl h₂
  · rcases h₁ with h₁ | ⟨hc', hf', n', hn'⟩
    · exact Or.inl (hc.trans h₁)
    · refine Or.inr ⟨hc.trans hc', hf.trans hf', n' + n, ?_⟩
      rw [hn, hn', List.append_assoc, List.replicate_add]

end Cache_step

/-- **A valid cache stays valid over a mutator.** -/
theorem Cache_ok.of_step {s t : Gtid_set} (hs : s.Cache_ok) (h : Cache_step s t) :
    t.Cache_ok := by
  rcases h with h | ⟨hc, hf, n, hn⟩
  · exact Or.inl h
  · rcases hs with hs | ⟨sf, hsf, hlen⟩
    · exact Or.inl (hc.trans hs)
    · exact Or.inr ⟨sf, hf.trans hsf, by rw [hc, hlen, string_length_of_append_empty hn]⟩

theorem cache_step_ensure_sidno (s : Gtid_set) (n : Nat) : Cache_step s (s.ensure_sidno n) := by
  unfold ensure_sidno
  split
  · exact Or.inr ⟨rfl, rfl, _, rfl⟩
  · exact Cache_step.refl s

/-- The two writes of interval lists reset the cache. -/
theorem Cache_step.write_relation : Write_relation Cache_step :=
  ⟨Cache_step.refl, Cache_step.trans, fun _ _ _ _ _ => Or.inl rfl, fun _ _ _ _ _ => Or.inl rfl,
    cache_step_ensure_sidno⟩

theorem cache_step_clear (s : Gtid_set) : Cache_step s s.clear := by
  unfold clear
  split
  · exact Or.inl rfl
  · exact Or.inl rfl

theorem cache_step_add_gtid_text (s : Gtid_set) (m : Sid_map) (text : List Char)
    (anonymous_p : Bool) : Cache_step s (s.add_gtid_text m text anonymous_p).set := by
  simp only [add_gtid_text]
  split
  · exact Cache_step.refl s
  · refine Cache_step.trans ?_ (Cache_step.write_relation.add_gtid_text_loop _ _ _ _)
    dsimp only
    split
    · exact Cache_step.refl s
    · -- the chunk allocated first leaves the cache and the lists alone
      exact Or.inr ⟨rfl, rfl, 0, by simp⟩

end Gtid_set

/-! ## Reading the default format back -/

section ReadBack

/-- Where an interval of the default format may end: before `:`, `,` or the end. -/
theorem peek_facts {R : List Char} (h : peek R = ':' ∨ peek R = ',' ∨ peek R = '\x00') :
    isdigit (peek R) = false ∧ isspace (peek R) = false ∧ peek R ≠ '-' := by
  rcases h with h | h | h <;> rw [h] <;> decide

theorem skip_whitespace_of_peek {R : List Char} (h : isspace (peek R) = false) :
    skip_whitespace R = R := by
  cases R with
  | nil => rfl
  | cons c r => exact List.dropWhile_cons_of_neg (by simpa using h)

theorem parse_gno_format_gno {g : Int} (h₁ : 1 ≤ g) (h₂ : g < LLONG_MAX) {R : List Char}
    (hR : isdigit (peek R) = false) : parse_gno (format_gno g ++ R) = (g, R) := by
  have hg : g % 2 ^ 64 = g := Int.emod_eq_of_lt (by omega) (lt_trans h₂ (by simp [LLONG_MAX]))
  have hn : 1 ≤ g.toNat := by omega
  have hs := strtoll_toDigits hn hR
  rw [Int.toNat_of_nonneg (by omega), show min g LLONG_MAX = g from min_eq_left h₂.le] at hs
  simp only [parse_gno, format_gno, hg, hs]
  rw [if_neg (by omega)]

/-- An interval of the default format parses back to itself. -/
theorem parse_interval_text {iv : Interval} (h₁ : 1 ≤ iv.start) (h₂ : iv.start < iv.end)
    (h₃ : iv.end ≤ MAX_GNO) {R : List Char}
    (hR : peek R = ':' ∨ peek R = ',' ∨ peek R = '\x00') :
    parse_interval (interval_text default_string_format iv ++ R) = some (iv.start, iv.end, R) := by
  obtain ⟨hdig, hsp, hdash⟩ := peek_facts hR
  have hlt : iv.start < LLONG_MAX := lt_of_lt_of_le h₂ h₃
  by_cases hlong : iv.end > iv.start + 1
  · have hend : iv.end - 1 < LLONG_MAX := by simp only [MAX_GNO, LLONG_MAX] at *; omega
    have htext : interval_text default_string_format iv ++ R =
        format_gno iv.start ++ ('-' :: (format_gno (iv.end - 1) ++ R)) := by
      have hsep : default_string_format.gno_start_end_separator.take
          default_string_format.gno_start_end_separator_length = ['-'] := rfl
      rw [interval_text, if_pos hlong, hsep, List.append_assoc, List.singleton_append,
        List.cons_append]
    have hdash' : isdigit (peek ('-' :: (format_gno (iv.end - 1) ++ R))) = false := by
      rw [peek_cons]; decide
    have hsp' : isspace (peek ('-' :: (format_gno (iv.end - 1) ++ R))) = false := by
      rw [peek_cons]; decide
    rw [htext, parse_interval, parse_gno_format_gno h₁ hlt hdash']
    simp only
    rw [if_neg (by omega), skip_whitespace_of_peek hsp', peek_cons, if_pos rfl,
      List.tail_cons, parse_gno_format_gno (by omega) hend hdig,
      if_neg (by omega), skip_whitespace_of_peek hsp, Int.sub_add_cancel]
  · rw [interval_text, if_neg hlong, List.append_nil, parse_interval,
      parse_gno_format_gno h₁ hlt hdig]
    simp only
    rw [if_neg (by omega), skip_whitespace_of_peek hsp, if_neg hdash]
    congr
    omega

theorem intervals_text_default_cons (b : Bool) (iv : Interval) (rest : List Interval) :
    intervals_text default_string_format b (iv :: rest) =
      ':' :: (interval_text default_string_format iv ++
        intervals_text default_string_format false rest) := by
  cases b <;> rfl

theorem peek_intervals_text (rest : List Interval) {R : List Char}
    (hR : peek R = ',' ∨ peek R = '\x00') :
    peek (intervals_text default_string_format false rest ++ R) = ':' ∨
      peek (intervals_text default_string_format false rest ++ R) = ',' ∨
      peek (intervals_text default_string_format false rest ++ R) = '\x00' := by
  cases rest with
  | nil => exact Or.inr hR
  | cons iv rest => left; rw [intervals_text_default_cons]; rfl

theorem length_le_intervals_text (b : Bool) :
    ∀ l : List Interval, l.length ≤ (intervals_text default_string_format b l).length
  | [] => le_rfl
  | iv :: rest => by
    have ih := length_le_intervals_text false rest
    rw [intervals_text_default_cons]
    simp only [List.length_cons, List.length_append]
    omega

/-- The intervals of one SIDNO in the default format read back to the list. -/
theorem read_intervals_text (b : Bool) :
    ∀ (l : List Interval) (fuel : Nat) {R : List Char}, Normal l → l.length < fuel →
      (peek R = ',' ∨ peek R = '\x00') →
      read_intervals fuel (intervals_text default_string_format b l ++ R) = (l, some R)
  | [], fuel + 1, R, _, _, hR => by
    have hc : peek R ≠ ':' := by rcases hR with h | h <;> rw [h] <;> decide
    simp only [intervals_text, List.nil_append, read_intervals, hc, if_false]
  | iv :: rest, fuel + 1, R, hl, hf, hR => by
    have hb := hl.bounds List.mem_cons_self
    have hiv := parse_interval_text hb.1 hl.sep.head_lt hb.2 (peek_intervals_text rest hR)
    have ih := read_intervals_text false rest fuel hl.tail
      (by simp only [List.length_cons] at hf; omega) hR
    rw [intervals_text_default_cons, List.cons_append, read_intervals, peek_cons, if_pos rfl,
      List.tail_cons, List.append_assoc, hiv]
    simp only [ih, if_pos hl.sep.head_lt]

/-- The text of a SID starts with a character that is none of `,`, white space and
    the end. -/
theorem to_string_append_eq_cons (u : Uuid) (X : List Char) :
    ∃ c cs, u.to_string ++ X = c :: cs ∧ c ≠ ',' ∧ isspace c = false ∧ c ≠ '\x00' := by
  obtain ⟨c, hc, hmem⟩ := u.to_string_head
  obtain ⟨cs, hcs⟩ := List.head?_eq_some_iff.mp hc
  -- checked as one Bool over the sixteen digits, which the kernel evaluates directly
  have hall : ("0123456789abcdef".toList.all fun d =>
      decide (d ≠ ',') && !isspace d && decide (d ≠ '\x00')) = true := by rfl
  have hc : c ≠ ',' ∧ isspace c = false ∧ c ≠ '\x00' := by
    simpa [and_assoc] using List.all_eq_true.mp hall c hmem
  exact ⟨c, cs ++ X, by rw [hcs, List.cons_append], hc⟩

theorem skip_commas_to_string (u : Uuid) (X : List Char) :
    skip_commas (',' :: '\n' :: (u.to_string ++ X)) = u.to_string ++ X := by
  obtain ⟨c, cs, h, hc, hsp, -⟩ := to_string_append_eq_cons u X
  rw [skip_commas, peek_cons, if_pos rfl, List.tail_cons, List.dropWhile_cons_of_pos (by decide),
    h, List.dropWhile_cons_of_neg (by simp [hc, hsp])]

theorem skip_commas_to_string' (u : Uuid) (X : List Char) :
    skip_commas (u.to_string ++ X) = u.to_string ++ X := by
  obtain ⟨c, cs, h, hc, -, -⟩ := to_string_append_eq_cons u X
  rw [h, skip_commas, peek_cons, if_neg hc]

/-- One SID and its intervals in the default format read back to one item. -/
theorem read_sid_spec_text {m : Sid_map} (hm : m.WF) {r : Text_reading} (hr : r.sid_map = m)
    {j : Nat} (h₁ : 1 ≤ j) (h₂ : j ≤ m.get_max_sidno) {l : List Interval} (hl : Normal l)
    {fuel : Nat} (hf : l.length < fuel) {R : List Char} (hR : peek R = ',' ∨ peek R = '\x00') :
    read_sid_spec false fuel r
        ((m.sidno_to_sid j).to_string ++ intervals_text default_string_format true l ++ R) =
      ({ r with items := r.items ++ [(j, l)] }, some R) := by
  have hlen := Uuid.to_string_length (m.sidno_to_sid j)
  have hdrop : ((m.sidno_to_sid j).to_string ++ intervals_text default_string_format true l ++
      R).drop TEXT_LENGTH = intervals_text default_string_format true l ++ R := by
    rw [List.append_assoc, ← hlen, List.drop_left]
  have hws : skip_whitespace (intervals_text default_string_format true l ++ R) =
      intervals_text default_string_format true l ++ R := by
    apply skip_whitespace_of_peek
    cases l with
    | nil => exact (peek_facts (Or.inr hR)).2.1
    | cons iv rest => rw [intervals_text_default_cons]; rfl
  have hparse : Uuid.parse ((m.sidno_to_sid j).to_string ++
      intervals_text default_string_format true l ++ R) = some (m.sidno_to_sid j) := by
    rw [List.append_assoc, Uuid.parse_to_string]
  obtain ⟨st, sm, an, items⟩ := r
  simp only at hr
  subst hr
  simp only [read_sid_spec, Bool.false_eq_true, false_and, if_false, hparse,
    Sid_map.add_sid_sidno_to_sid hm h₁ h₂, hdrop, hws, read_intervals_text true l fuel hl hf hR]

/-- The items the default-format text over `L` reads: each SIDNO of `L` that has
    intervals, with its list. -/
def Gtid_set.text_items (s : Gtid_set) (L : List Nat) : List (Nat × List Interval) :=
  (L.filter s.contains_sidno).map fun j => (j, s.ivs j)

section Loops

variable {s : Gtid_set} {m : Sid_map} {j : Nat}

theorem sids_text_false_cons (hc : s.contains_sidno j = true) (L : List Nat) :
    s.sids_text m default_string_format false (j :: L) =
      ',' :: '\n' :: ((m.sidno_to_sid j).to_string ++
        intervals_text default_string_format true (s.ivs j) ++
        s.sids_text m default_string_format false L) := by
  rw [Gtid_set.sids_text, if_pos hc]
  rfl

theorem sids_text_true_cons (hc : s.contains_sidno j = true) (L : List Nat) :
    s.sids_text m default_string_format true (j :: L) =
      (m.sidno_to_sid j).to_string ++ intervals_text default_string_format true (s.ivs j) ++
        s.sids_text m default_string_format false L := by
  rw [Gtid_set.sids_text, if_pos hc]
  rfl

theorem peek_sids_text_false :
    ∀ L : List Nat, peek (s.sids_text m default_string_format false L) = ',' ∨
      peek (s.sids_text m default_string_format false L) = '\x00'
  | [] => Or.inr rfl
  | j :: L => by
    by_cases hc : s.contains_sidno j = true
    · rw [sids_text_false_cons hc]
      exact Or.inl rfl
    · rw [Gtid_set.sids_text, if_neg hc]
      exact peek_sids_text_false L

theorem read_text_loop_nil (fuel : Nat) (r : Text_reading) :
    read_text_loop false (fuel + 1) r [] = r := rfl

/-- One step of the loop at the text of SIDNO `j`, once `skip_commas` has come to its SID:
    the block reads back to its item, and the loop goes on at the SIDs after it. -/
theorem read_text_loop_step (hs : s.NF) (hm : m.WF) {j : Nat} (hj : 1 ≤ j ∧ j ≤ m.get_max_sidno)
    {L : List Nat} {fuel : Nat} (hf : (s.ivs j).length < fuel) {r : Text_reading}
    (hr : r.sid_map = m) {T : List Char}
    (hskip : skip_commas T = (m.sidno_to_sid j).to_string ++
      intervals_text default_string_format true (s.ivs j) ++
        s.sids_text m default_string_format false L) :
    read_text_loop false (fuel + 1) r T =
      read_text_loop false fuel { r with items := r.items ++ [(j, s.ivs j)] }
        (s.sids_text m default_string_format false L) := by
  obtain ⟨c, cs, hcs, -, -, hc0⟩ := to_string_append_eq_cons (m.sidno_to_sid j)
    (intervals_text default_string_format true (s.ivs j) ++
      s.sids_text m default_string_format false L)
  have hblock := read_sid_spec_text hm hr hj.1 hj.2 (hs.ivs j) hf
    (peek_sids_text_false (s := s) (m := m) L)
  -- the text after the block starts at a comma or ends: the loop goes on
  have hend : ¬(peek (s.sids_text m default_string_format false L) ≠ ',' ∧
      peek (s.sids_text m default_string_format false L) ≠ '\x00') := by
    rcases peek_sids_text_false (m := m) (s := s) L with h | h <;> simp [h]
  rw [read_text_loop]
  simp only [List.append_assoc] at hblock hskip ⊢
  rw [hskip, hcs, peek_cons, if_neg hc0, ← hcs, hblock]
  simp only [hend, if_false]

/-- The SIDs after the first, each after `,\n`, read back to their items. Induction
    on the SIDNOs. -/
theorem read_text_loop_sids_false (hs : s.NF) (hm : m.WF) :
    ∀ (L : List Nat) (fuel : Nat) (r : Text_reading), r.sid_map = m →
      (∀ j ∈ L, 1 ≤ j ∧ j ≤ m.get_max_sidno) →
      (s.sids_text m default_string_format false L).length < fuel →
      read_text_loop false fuel r (s.sids_text m default_string_format false L) =
        { r with items := r.items ++ s.text_items L }
  | [], fuel + 1, r, _, _, _ => by
    simp [Gtid_set.sids_text, Gtid_set.text_items, read_text_loop_nil]
  | j :: L, fuel + 1, r, hr, hL, hf => by
    have hj := hL j List.mem_cons_self
    have hL' : ∀ j ∈ L, 1 ≤ j ∧ j ≤ m.get_max_sidno := fun j' h => hL j' (List.mem_cons_of_mem _ h)
    by_cases hc : s.contains_sidno j = true
    · rw [sids_text_false_cons hc] at hf ⊢
      have hlen := length_le_intervals_text true (s.ivs j)
      simp only [List.length_cons, List.length_append, Uuid.to_string_length, TEXT_LENGTH] at hf
      rw [read_text_loop_step hs hm hj (by omega) hr
          (by rw [List.append_assoc, skip_commas_to_string]),
        read_text_loop_sids_false hs hm L fuel { r with items := r.items ++ [(j, s.ivs j)] } hr hL'
          (by omega)]
      simp only [Gtid_set.text_items, List.filter_cons, hc, if_true, List.map_cons,
        List.append_assoc, List.singleton_append]
    · rw [Gtid_set.sids_text, if_neg hc] at hf ⊢
      rw [read_text_loop_sids_false hs hm L (fuel + 1) r hr hL' hf]
      simp [Gtid_set.text_items, hc]

/-- The whole default-format text of the SIDNOs `L` reads back to their items. -/
theorem read_text_loop_sids_true (hs : s.NF) (hm : m.WF) :
    ∀ (L : List Nat) (fuel : Nat) (r : Text_reading), r.sid_map = m →
      (∀ j ∈ L, 1 ≤ j ∧ j ≤ m.get_max_sidno) →
      (s.sids_text m default_string_format true L).length < fuel →
      read_text_loop false fuel r (s.sids_text m default_string_format true L) =
        { r with items := r.items ++ s.text_items L }
  | [], fuel + 1, r, _, _, _ => by
    simp [Gtid_set.sids_text, Gtid_set.text_items, read_text_loop_nil]
  | j :: L, fuel + 1, r, hr, hL, hf => by
    have hj := hL j List.mem_cons_self
    have hL' : ∀ j ∈ L, 1 ≤ j ∧ j ≤ m.get_max_sidno := fun j' h => hL j' (List.mem_cons_of_mem _ h)
    by_cases hc : s.contains_sidno j = true
    · -- the first SID has no separator before it; the ones after it are read as above
      rw [sids_text_true_cons hc] at hf ⊢
      have hlen := length_le_intervals_text true (s.ivs j)
      simp only [List.length_append, Uuid.to_string_length, TEXT_LENGTH] at hf
      rw [read_text_loop_step hs hm hj (by omega) hr
          (by rw [List.append_assoc, skip_commas_to_string']),
        read_text_loop_sids_false hs hm L fuel { r with items := r.items ++ [(j, s.ivs j)] } hr hL'
          (by omega)]
      simp only [Gtid_set.text_items, List.filter_cons, hc, if_true, List.map_cons,
        List.append_assoc, List.singleton_append]
    · rw [Gtid_set.sids_text, if_neg hc] at hf ⊢
      rw [read_text_loop_sids_true hs hm L (fuel + 1) r hr hL' hf]
      simp [Gtid_set.text_items, hc]

end Loops

/-- `read_text` is its loop from the first character that is not white space: a
    text that is empty there ends the loop at once. -/
theorem read_text_eq_loop (m : Sid_map) (text : List Char) (anonymous_p : Bool) :
    read_text m text anonymous_p =
      read_text_loop anonymous_p ((skip_whitespace text).length + 1)
        ⟨.RETURN_STATUS_OK, m, false, []⟩ (skip_whitespace text) := by
  simp only [read_text]
  split
  · rename_i h
    have hsc : skip_commas (skip_whitespace text) = skip_whitespace text :=
      if_neg (by rw [h]; decide)
    rw [read_text_loop]
    simp only [hsc, h, if_true]
  · rfl

theorem skip_whitespace_sids_text (s : Gtid_set) (m : Sid_map) :
    ∀ L : List Nat, skip_whitespace (s.sids_text m default_string_format true L) =
      s.sids_text m default_string_format true L
  | [] => rfl
  | j :: L => by
    by_cases hc : s.contains_sidno j = true
    · rw [sids_text_true_cons hc, List.append_assoc]
      obtain ⟨c, cs, hcs, -, hsp, -⟩ := to_string_append_eq_cons (m.sidno_to_sid j)
        (intervals_text default_string_format true (s.ivs j) ++
          s.sids_text m default_string_format false L)
      rw [hcs]
      exact List.dropWhile_cons_of_neg (by simpa using hsp)
    · rw [Gtid_set.sids_text, if_neg hc]
      exact skip_whitespace_sids_text s m L

theorem mem_sorted_sidnos {m : Sid_map} (hm : m.WF) {j : Nat} :
    j ∈ m.sorted_sidnos ↔ 1 ≤ j ∧ j ≤ m.get_max_sidno := by
  rw [Sid_map.sorted_sidnos_eq hm, hm.sorted_perm.mem_iff, List.mem_range'_1]
  simp only [Sid_map.get_max_sidno]
  omega

/-- The default-format text lists the GTIDs of the set, in SID order. -/
theorem to_string_default {s : Gtid_set} (m : Sid_map) :
    s.to_string m default_string_format = s.sids_text m default_string_format true m.sorted_sidnos := by
  unfold Gtid_set.to_string
  split
  · rename_i h
    -- an empty set writes nothing, and no SIDNO of it has intervals
    have hnone : ∀ j, s.contains_sidno j = false := by
      intro j
      rw [Gtid_set.contains_sidno_eq]
      have hall := h.2
      simp only [Gtid_set.is_empty, List.all_eq_true] at hall
      unfold Gtid_set.ivs
      rw [List.getD_eq_getElem?_getD]
      cases hl : s.intervals[j - 1]? with
      | none => rfl
      | some l => simp [hall l (List.mem_of_getElem? hl)]
    have hnil : ∀ L : List Nat, s.sids_text m default_string_format true L = [] := by
      intro L
      induction L with
      | nil => rfl
      | cons j L ih => rw [Gtid_set.sids_text, if_neg (by simp [hnone j]), ih]
    rw [hnil]
    rfl
  · simp [default_string_format]

/-- **The default-format text reads back to the set**: status OK, the same map, and
    one item per SIDNO with intervals, in SID order, holding its list. -/
theorem read_text_to_string {s : Gtid_set} {m : Sid_map} (hs : s.NF) (hm : m.WF) :
    read_text m (s.to_string m default_string_format) false =
      ⟨.RETURN_STATUS_OK, m, false, s.text_items m.sorted_sidnos⟩ := by
  rw [read_text_eq_loop, to_string_default, skip_whitespace_sids_text,
    read_text_loop_sids_true hs hm _ _ _ rfl (fun j hj => (mem_sorted_sidnos hm).mp hj)
      (Nat.lt_succ_self _)]
  rfl

/-- The items of the default-format text hold exactly the set's GTIDs. -/
theorem items_denote_text_items {s : Gtid_set} {m : Sid_map} (hm : m.WF)
    (hmax : s.get_max_sidno ≤ m.get_max_sidno) :
    items_denote (s.text_items m.sorted_sidnos) = s.denote := by
  ext ⟨j, g⟩
  simp only [items_denote, Gtid_set.text_items, List.mem_map, List.mem_filter,
    Set.mem_ofPred_eq, Gtid_set.mem_denote]
  constructor
  · rintro ⟨-, ⟨j', ⟨hj', -⟩, rfl⟩, rfl, hg⟩
    exact ⟨((mem_sorted_sidnos hm).mp hj').1, hg⟩
  · rintro ⟨hj, hg⟩
    have hne : s.ivs j ≠ [] := by
      rintro h
      rw [h, covers_nil] at hg
      exact hg
    have hle : j ≤ s.get_max_sidno := by
      by_contra hlt
      exact hne (Gtid_set.ivs_of_gt (by omega))
    refine ⟨(j, s.ivs j), ⟨j, ⟨(mem_sorted_sidnos hm).mpr ⟨hj, by omega⟩, ?_⟩, rfl⟩, rfl, hg⟩
    rw [Gtid_set.contains_sidno_eq]
    simpa using hne

/-- **Default-format round trip**: the default text of a set, read into an empty set
    over the same map, succeeds, leaves the map as it is and rebuilds every interval
    list. -/
theorem add_gtid_text_to_string {s : Gtid_set} {m : Sid_map} (hs : s.NF) (hm : m.WF)
    (hmax : s.get_max_sidno ≤ m.get_max_sidno) :
    (Gtid_set.empty.add_gtid_text m (s.to_string m default_string_format) false).status =
        .RETURN_STATUS_OK ∧
      (Gtid_set.empty.add_gtid_text m (s.to_string m default_string_format) false).sid_map = m ∧
      ∀ j, (Gtid_set.empty.add_gtid_text m (s.to_string m default_string_format) false).set.ivs j =
        s.ivs j := by
  have h := add_gtid_text_spec Gtid_set.nf_empty (Nat.zero_le m.get_max_sidno)
    (s.to_string m default_string_format) false
  rw [read_text_to_string hs hm] at h
  refine ⟨h.status, h.sid_map, Gtid_set.ivs_eq_of_denote_eq h.nf hs ?_⟩
  rw [h.denote, Gtid_set.denote_empty, Set.empty_union]
  exact items_denote_text_items hm hmax

end ReadBack

end Gtid
end AliSql
