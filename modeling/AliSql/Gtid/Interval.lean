import Mathlib
import AliSql.Lib.IntervalList

/-!
# One SIDNO's GNO intervals: `add_gno_interval` and `remove_gno_interval`

`Gtid_set` keeps, for every SIDNO, a singly linked list of `Interval`s (`rpl_gtid.h`,
`struct Interval`): half-open ranges `start ≤ gno < end` of 64-bit GNOs. The two
functions of `rpl_gtid_set.cc` that change such a list are modelled here, and they are
the only ones: every mutator of `Gtid_set` reaches the lists through them (or empties
them, in `clear`).

Both functions take an `Interval_iterator *`, which points at the `next` field of the
interval *before* the current one, so the intervals before the iterator are never
looked at and never changed. The model keeps that structure: each function is given
the list **from the iterator's position on**, and returns the new list from that
position on together with the number of `ivit.next()` steps it took. The caller
glues the untouched prefix back on (`add_gno_interval_at`, `remove_gno_interval_at`).
That is what lets `add_gtid_text`, `add_gtid_encoding` and `add_gno_intervals` reuse
an iterator between calls, and the correctness of that reuse is a fact about the
prefix (`Sep.hi_lt_lo_of_mem_take`), not a new induction.

Memory management (`get_free_interval`, `put_free_interval`, `Free_intervals_lock`)
is not modelled: allocation always succeeds here, so both functions always return
`RETURN_STATUS_OK` and are modelled as total functions.

## What is proved

One closed form per function, and from it the whole contract:

* `merge_gno_interval_shape`: the merge loop removes a chain of intervals that
  `[start, end)` reaches and gives the last one the merged bounds;
* `add_gno_interval_shape`: the result is *prefix* ++ one merged interval ++ *suffix*,
  the prefix being the intervals that end before `start`;
* `remove_covered_shape`: the removal loop drops the intervals that end by `end` and
  trims the first one left.

The `…_at` theorems then give normal form, the covered set (`∪` and `\` of
`Set.Ico`), and where the iterator is left.
-/

set_option autoImplicit false

namespace AliSql
namespace Gtid

open IntervalList

/-- `MAX_GNO = LONGLONG_MAX`: no GNO reaches it. -/
def MAX_GNO : Int := 2 ^ 63 - 1

/-- `Gtid_set::Interval`: the GNOs `g` with `start ≤ g < end`. -/
structure Interval where
  start : Int
  «end» : Int
deriving DecidableEq, Repr

/-- The normal form of one SIDNO's list: each interval non-empty, ending strictly
    before the next begins, and inside the range of `rpl_gno` (`1 ≤ start`,
    `end ≤ MAX_GNO`; the upper bound is what the `int64` type of the fields gives). -/
def Normal (l : List Interval) : Prop :=
  Sep Interval.start Interval.end l ∧ ∀ iv ∈ l, 1 ≤ iv.start ∧ iv.end ≤ MAX_GNO

instance (l : List Interval) : Decidable (Normal l) :=
  inferInstanceAs (Decidable ((_ ∧ _) ∧ _))

theorem Normal.sep {l : List Interval} (h : Normal l) : Sep Interval.start Interval.end l :=
  h.1

theorem Normal.bounds {l : List Interval} (h : Normal l) {iv : Interval} (hiv : iv ∈ l) :
    1 ≤ iv.start ∧ iv.end ≤ MAX_GNO :=
  h.2 iv hiv

theorem Normal.tail {iv : Interval} {l : List Interval} (h : Normal (iv :: l)) : Normal l :=
  ⟨h.sep.tail, fun _ hy => h.bounds (List.mem_cons_of_mem _ hy)⟩

@[simp] theorem normal_nil : Normal [] := by
  simp [Normal]

/-- **A list in normal form is determined by the GNOs it covers.** -/
theorem Normal.eq_of_covers_eq {l l' : List Interval} (h : Normal l) (h' : Normal l')
    (hc : covers Interval.start Interval.end l = covers Interval.start Interval.end l') :
    l = l' := by
  have hmap := h.sep.map_eq_of_covers_eq h'.sep hc
  have hinj : ∀ a b : Interval, (a.start, a.end) = (b.start, b.end) → a = b := by
    intro a b hab
    simp only [Prod.mk.injEq] at hab
    cases a
    cases b
    simp_all
  exact (List.map_inj_right hinj).mp hmap

/-! ## The functions -/

/-- The merge loop of `add_gno_interval`. `iv` touches the interval being added,
    whose start has already been lowered to `start`; while `end` reaches the next
    interval, the current one is removed (`ivit.remove`), and the last one reached
    takes the merged bounds. -/
def merge_gno_interval (iv : Interval) : List Interval → Int → Int → List Interval
  | [], start, e => [⟨start, if iv.end < e then e else iv.end⟩]
  | nx :: rest, start, e =>
    if e ≥ nx.start then merge_gno_interval nx rest start e
    else ⟨start, if iv.end < e then e else iv.end⟩ :: nx :: rest

/-- `Gtid_set::add_gno_interval`, on the intervals from the iterator's position on.
    The second component is the number of `ivit.next()` steps: the iterator is left
    at the merged or inserted interval. -/
def add_gno_interval : List Interval → Int → Int → List Interval × Nat
  | [], start, e => ([⟨start, e⟩], 0)
  | iv :: rest, start, e =>
    if iv.end ≥ start then
      -- `(start, end)` is strictly before the current interval: insert it here
      if iv.start > e then (⟨start, e⟩ :: iv :: rest, 0)
      else (merge_gno_interval iv rest (if iv.start < start then iv.start else start) e, 0)
    else
      let r := add_gno_interval rest start e
      (iv :: r.1, r.2 + 1)

/-- The second removal loop of `remove_gno_interval`: every interval ending by `end`
    is removed, and the first one left loses its part below `end`. The iterator does
    not move. -/
def remove_covered : List Interval → Int → List Interval
  | [], _ => []
  | iv :: rest, e =>
    if iv.end ≤ e then remove_covered rest e
    else (if iv.start < e then ⟨e, iv.end⟩ else iv) :: rest

/-- `remove_gno_interval` from the first interval that ends after `start`: split it,
    truncate it, or start removing at it. -/
def remove_from (iv : Interval) (rest : List Interval) (start e : Int) : List Interval × Nat :=
  if iv.start < start then
    -- iv cuts also the end of the removed interval: split iv in two
    if iv.end > e then (⟨iv.start, start⟩ :: ⟨e, iv.end⟩ :: rest, 1)
    else (⟨iv.start, start⟩ :: remove_covered rest e, 1)
  else (remove_covered (iv :: rest) e, 0)

/-- `Gtid_set::remove_gno_interval`, on the intervals from the iterator's position on;
    the intervals that end by `start` are skipped. -/
def remove_gno_interval : List Interval → Int → Int → List Interval × Nat
  | [], _, _ => ([], 0)
  | iv :: rest, start, e =>
    if iv.end > start then remove_from iv rest start e
    else
      let r := remove_gno_interval rest start e
      (iv :: r.1, r.2 + 1)

/-- `add_gno_interval` called with an iterator at position `k` of the whole list. -/
def add_gno_interval_at (l : List Interval) (k : Nat) (start e : Int) : List Interval × Nat :=
  let r := add_gno_interval (l.drop k) start e
  (l.take k ++ r.1, k + r.2)

/-- `remove_gno_interval` called with an iterator at position `k` of the whole list. -/
def remove_gno_interval_at (l : List Interval) (k : Nat) (start e : Int) :
    List Interval × Nat :=
  let r := remove_gno_interval (l.drop k) start e
  (l.take k ++ r.1, k + r.2)

example : add_gno_interval [⟨1, 3⟩, ⟨5, 7⟩, ⟨9, 10⟩] 3 5 = ([⟨1, 7⟩, ⟨9, 10⟩], 0) := by
  decide

example : remove_gno_interval [⟨1, 7⟩, ⟨9, 12⟩] 3 10 = ([⟨1, 3⟩, ⟨10, 12⟩], 1) := by
  decide

/-! ## The merge loop -/

/-- **Closed form of the merge loop.** The loop removes a chain of intervals that
    `end` reaches and writes the merged bounds into the first one it does not; the
    merged end `m` is `end` or the end of an interval of the chain, and every interval
    it leaves in place begins past `m`. -/
theorem merge_gno_interval_shape :
    ∀ (rest : List Interval) {iv : Interval} {s e : Int},
      Sep Interval.start Interval.end (iv :: rest) → s ≤ iv.start → iv.start ≤ e →
      s < e →
      ∃ chain post m, rest = chain ++ post ∧
        merge_gno_interval iv rest s e = ⟨s, m⟩ :: post ∧ e ≤ m ∧
        (m = e ∨ ∃ z ∈ iv :: chain, z.end = m) ∧ (∀ y ∈ post, m < y.start) ∧
        Set.Ico s m = Set.Ico s e ∪ covers Interval.start Interval.end (iv :: chain)
  | [], iv, s, e, hsep, hs, he, hse => by
    refine ⟨[], [], if iv.end < e then e else iv.end, rfl, rfl, ?_, ?_, by simp, ?_⟩
    · split <;> omega
    · split
      · exact Or.inl rfl
      · exact Or.inr ⟨iv, List.mem_singleton_self _, rfl⟩
    · have hiv := hsep.head_lt
      ext g
      simp only [covers_cons, covers_nil, Set.union_empty, Set.mem_union, Set.mem_Ico]
      split <;> omega
  | nx :: rest, iv, s, e, hsep, hs, he, hse => by
    have hivnx : iv.end < nx.start := hsep.hi_lt_lo List.mem_cons_self
    have hiv := hsep.head_lt
    by_cases hreach : e ≥ nx.start
    · -- `end` reaches `nx`: `iv` is removed and the loop goes on from `nx`
      obtain ⟨chain, post, m, hrest, heq, hem, hm, hpost, hcov⟩ :=
        merge_gno_interval_shape rest hsep.tail (by omega) hreach hse
      refine ⟨nx :: chain, post, m, by rw [hrest, List.cons_append], ?_, hem, ?_, hpost, ?_⟩
      · rw [merge_gno_interval, if_pos hreach, heq]
      · rcases hm with hm | ⟨z, hz, hzm⟩
        · exact Or.inl hm
        · exact Or.inr ⟨z, List.mem_cons_of_mem _ hz, hzm⟩
      · have hsub : Set.Ico iv.start iv.end ⊆ Set.Ico s e :=
          Set.Ico_subset_Ico hs (by omega)
        rw [hcov, covers_cons iv, ← Set.union_assoc, Set.union_eq_self_of_subset_right hsub]
    · -- `nx` is out of reach: `iv` takes the merged bounds
      refine ⟨[], nx :: rest, if iv.end < e then e else iv.end, by simp, ?_, ?_, ?_, ?_, ?_⟩
      · rw [merge_gno_interval, if_neg hreach]
      · split <;> omega
      · split
        · exact Or.inl rfl
        · exact Or.inr ⟨iv, List.mem_singleton_self _, rfl⟩
      · intro y hy
        rcases List.mem_cons.mp hy with rfl | hy
        · split <;> omega
        · have hnxy : nx.end < y.start := hsep.tail.hi_lt_lo hy
          have hnx : nx.start < nx.end := hsep.tail.head_lt
          split <;> omega
      · ext g
        simp only [covers_cons, covers_nil, Set.union_empty, Set.mem_union, Set.mem_Ico]
        split <;> omega

/-! ## `add_gno_interval` -/

/-- **Closed form of `add_gno_interval`.** The list splits into the intervals that end
    before `start` (which the iterator steps over), the ones the new interval touches,
    and the rest. The touched ones are replaced by one interval `[s', m)` with
    `s' ≤ start` and `end ≤ m`, covering exactly `[start, end)` and what they covered,
    and the iterator is left on it. -/
theorem add_gno_interval_shape :
    ∀ (M : List Interval) {s e : Int}, Sep Interval.start Interval.end M → s < e →
      ∃ pre mid post s' m, M = pre ++ mid ++ post ∧
        add_gno_interval M s e = (pre ++ ⟨s', m⟩ :: post, pre.length) ∧
        (∀ y ∈ pre, y.end < s) ∧ s' ≤ s ∧ e ≤ m ∧
        (s' = s ∨ ∃ z ∈ mid, z.start = s') ∧ (m = e ∨ ∃ z ∈ mid, z.end = m) ∧
        (∀ y ∈ post, m < y.start) ∧
        Set.Ico s' m = Set.Ico s e ∪ covers Interval.start Interval.end mid
  | [], s, e, _, hse =>
    ⟨[], [], [], s, e, rfl, rfl, by simp, le_refl _, le_refl _, Or.inl rfl, Or.inl rfl,
      by simp, by simp⟩
  | iv :: rest, s, e, hsep, hse => by
    have hiv := hsep.head_lt
    by_cases htouch : iv.end ≥ s
    · by_cases hbefore : iv.start > e
      · -- strictly before `iv`: a new interval is inserted in front of it
        refine ⟨[], [], iv :: rest, s, e, rfl, ?_, by simp, le_refl _, le_refl _, Or.inl rfl,
          Or.inl rfl, ?_, by simp⟩
        · simp [add_gno_interval, htouch, hbefore]
        · intro y hy
          rcases List.mem_cons.mp hy with rfl | hy
          · exact hbefore
          · have := hsep.hi_lt_lo hy
            omega
      · -- `iv` touches `[start, end)`: merge from `iv` on
        have hle : iv.start ≤ e := le_of_not_gt hbefore
        obtain ⟨chain, post, m, hrest, heq, hem, hm, hpost, hcov⟩ :=
          merge_gno_interval_shape rest (s := if iv.start < s then iv.start else s) hsep
            (by split <;> omega) hle (by split <;> omega)
        refine ⟨[], iv :: chain, post, if iv.start < s then iv.start else s, m,
          by rw [hrest]; rfl, ?_, by simp, by split <;> omega, hem, ?_, ?_, hpost, ?_⟩
        · simp only [add_gno_interval, ge_iff_le, htouch, if_true, hbefore, if_false, heq,
            List.nil_append, List.length_nil]
        · split
          · exact Or.inr ⟨iv, List.mem_cons_self, rfl⟩
          · exact Or.inl rfl
        · rcases hm with hm | ⟨z, hz, hzm⟩
          · exact Or.inl hm
          · exact Or.inr ⟨z, hz, hzm⟩
        · -- lowering the start to `iv.start` adds nothing `iv` does not cover
          have hlow : Set.Ico (if iv.start < s then iv.start else s) e ∪
              Set.Ico iv.start iv.end = Set.Ico s e ∪ Set.Ico iv.start iv.end := by
            ext g
            simp only [Set.mem_union, Set.mem_Ico]
            split <;> omega
          rw [hcov, covers_cons, ← Set.union_assoc, hlow, Set.union_assoc]
    · -- `iv` ends before `start`: the iterator steps over it
      obtain ⟨pre, mid, post, s', m, hM, heq, hpre, hs', hem, hs'm, hm, hpost, hcov⟩ :=
        add_gno_interval_shape rest hsep.tail hse
      refine ⟨iv :: pre, mid, post, s', m, by rw [hM]; rfl, ?_, ?_, hs', hem, hs'm, hm,
        hpost, hcov⟩
      · simp only [add_gno_interval, ge_iff_le, htouch, if_false, heq, List.cons_append,
          List.length_cons]
      · intro y hy
        rcases List.mem_cons.mp hy with rfl | hy
        · omega
        · exact hpre y hy

/-- An iterator that `add_gtid_text` keeps instead of resetting it: if the interval at
    position `k` does not begin after `start`, everything before `k` ends before
    `start`. -/
theorem Normal.end_lt_of_take {l : List Interval} (hl : Normal l) {k : Nat} {p : Interval}
    (hp : l[k]? = some p) {s : Int} (hps : p.start ≤ s) {y : Interval} (hy : y ∈ l.take k) :
    y.end < s :=
  lt_of_lt_of_le (hl.sep.hi_lt_lo_of_mem_take hp hy) hps

section AddAt

variable {l : List Interval} {k : Nat} {s e : Int}

/-- What the three `add_gno_interval_at` theorems share: the closed form, read at
    position `k`, with the ordering facts it needs from the normal form of `l`. -/
theorem add_gno_interval_at_shape (hl : Normal l) (hse : s < e) :
    ∃ pre mid post s' m, l.drop k = pre ++ mid ++ post ∧
      add_gno_interval_at l k s e = (l.take k ++ pre ++ ⟨s', m⟩ :: post, k + pre.length) ∧
      (∀ y ∈ pre, y.end < s) ∧ s' ≤ s ∧ e ≤ m ∧
      (s' = s ∨ ∃ z ∈ mid, z.start = s') ∧ (m = e ∨ ∃ z ∈ mid, z.end = m) ∧
      (∀ y ∈ post, m < y.start) ∧
      Set.Ico s' m = Set.Ico s e ∪ covers Interval.start Interval.end mid := by
  obtain ⟨pre, mid, post, s', m, hM, heq, hrest⟩ :=
    add_gno_interval_shape (l.drop k) (hl.sep.sublist (List.drop_sublist k l)) hse
  refine ⟨pre, mid, post, s', m, hM, ?_, hrest⟩
  simp only [add_gno_interval_at, heq, List.append_assoc]

/-- Adding an interval in range keeps the list in normal form, provided the iterator
    is at a position before which everything ends before `start`. -/
theorem add_gno_interval_at_normal (hl : Normal l) (hpre : ∀ y ∈ l.take k, y.end < s)
    (hs : 1 ≤ s) (hse : s < e) (he : e ≤ MAX_GNO) :
    Normal (add_gno_interval_at l k s e).1 := by
  obtain ⟨pre, mid, post, s', m, hM, heq, hpre', hs', hem, hs'm, hm, hpost, -⟩ :=
    add_gno_interval_at_shape (k := k) hl hse
  have hsplit : l = (l.take k ++ pre) ++ (mid ++ post) := by
    rw [List.append_assoc, ← List.append_assoc pre, ← hM, List.take_append_drop]
  have hl' := hl.sep
  rw [hsplit, sep_append] at hl'
  obtain ⟨hA, hB, hAB⟩ := hl'
  have hmem : ∀ y, y ∈ mid ∨ y ∈ post → y ∈ l := fun y hy => by
    rw [hsplit]; simp only [List.mem_append]; tauto
  -- the merged interval's endpoints are `start`/`end` or endpoints of `l`
  have hlo : 1 ≤ s' := by
    rcases hs'm with rfl | ⟨z, hz, rfl⟩
    · exact hs
    · exact (hl.bounds (hmem z (Or.inl hz))).1
  have hhi : m ≤ MAX_GNO := by
    rcases hm with rfl | ⟨z, hz, rfl⟩
    · exact he
    · exact (hl.bounds (hmem z (Or.inl hz))).2
  rw [heq]
  refine ⟨?_, ?_⟩
  · rw [sep_append, sep_cons]
    refine ⟨hA, ⟨show s' < m by omega, hpost, hB.sublist (List.sublist_append_right mid post)⟩,
      ?_⟩
    intro x hx y hy
    rcases List.mem_cons.mp hy with rfl | hy
    · rcases hs'm with rfl | ⟨z, hz, rfl⟩
      · rcases List.mem_append.mp hx with hx | hx
        · exact hpre x hx
        · exact hpre' x hx
      · exact hAB x hx z (List.mem_append_left _ hz)
    · exact hAB x hx y (List.mem_append_right _ hy)
  · intro x hx
    simp only [List.mem_append, List.mem_cons] at hx
    rcases hx with (hx | hx) | rfl | hx
    · exact hl.bounds (List.mem_of_mem_take hx)
    · exact hl.bounds (by rw [hsplit]; simp [hx])
    · exact ⟨hlo, hhi⟩
    · exact hl.bounds (hmem x (Or.inr hx))

/-- Adding an interval adds exactly its GNOs. -/
theorem add_gno_interval_at_covers (hl : Normal l) (hse : s < e) :
    covers Interval.start Interval.end (add_gno_interval_at l k s e).1 =
      covers Interval.start Interval.end l ∪ Set.Ico s e := by
  obtain ⟨pre, mid, post, s', m, hM, heq, -, -, -, -, -, -, hcov⟩ :=
    add_gno_interval_at_shape (k := k) hl hse
  have hsplit : l = l.take k ++ (pre ++ (mid ++ post)) := by
    rw [← List.append_assoc pre, ← hM, List.take_append_drop]
  rw [heq]
  conv_rhs => rw [hsplit]
  simp only [covers_append, covers_cons, hcov]
  ext g
  simp only [Set.mem_union]
  tauto

/-- After the call the iterator is on an interval that contains `[start, end)`. -/
theorem add_gno_interval_at_iter (hl : Normal l) (hk : k ≤ l.length) (hse : s < e) :
    ∃ p, (add_gno_interval_at l k s e).1[(add_gno_interval_at l k s e).2]? = some p ∧
      p.start ≤ s ∧ e ≤ p.end := by
  obtain ⟨pre, mid, post, s', m, -, heq, -, hs', hem, -⟩ :=
    add_gno_interval_at_shape (k := k) hl hse
  refine ⟨⟨s', m⟩, ?_, hs', hem⟩
  rw [heq]
  have hlen : (l.take k ++ pre).length = k + pre.length := by
    simp [List.length_take, Nat.min_eq_left hk]
  rw [← hlen, List.getElem?_append_right (le_refl _), Nat.sub_self]
  rfl

/-- The iterator stays inside the list. -/
theorem add_gno_interval_at_iter_le (hl : Normal l) (hk : k ≤ l.length) (hse : s < e) :
    (add_gno_interval_at l k s e).2 ≤ (add_gno_interval_at l k s e).1.length := by
  obtain ⟨p, hp, -⟩ := add_gno_interval_at_iter hl hk hse
  exact le_of_lt (List.getElem?_eq_some_iff.mp hp).1

end AddAt

/-! ## `remove_gno_interval` -/

/-- **Closed form of the removal loop.** `remove_covered` drops the intervals that end
    by `end` and makes the first one left begin at `end` at the latest. -/
theorem remove_covered_shape : ∀ (L : List Interval) (e : Int),
    ∃ gone post, L = gone ++ post ∧ (∀ y ∈ gone, y.end ≤ e) ∧
      ((post = [] ∧ remove_covered L e = []) ∨
        ∃ z r, post = z :: r ∧ e < z.end ∧
          remove_covered L e = (if z.start < e then ⟨e, z.end⟩ else z) :: r)
  | [], e => ⟨[], [], rfl, by simp, Or.inl ⟨rfl, rfl⟩⟩
  | iv :: rest, e => by
    by_cases hcov : iv.end ≤ e
    · obtain ⟨gone, post, hL, hgone, hpost⟩ := remove_covered_shape rest e
      refine ⟨iv :: gone, post, by rw [hL]; rfl, ?_, ?_⟩
      · intro y hy
        rcases List.mem_cons.mp hy with rfl | hy
        · exact hcov
        · exact hgone y hy
      · simpa only [remove_covered, hcov, if_true] using hpost
    · refine ⟨[], iv :: rest, rfl, by simp, Or.inr ⟨iv, rest, rfl, by omega, ?_⟩⟩
      simp only [remove_covered, hcov, if_false]

section RemoveCovered

variable {L : List Interval} {e : Int}

theorem remove_covered_sep (hL : Sep Interval.start Interval.end L) :
    Sep Interval.start Interval.end (remove_covered L e) := by
  obtain ⟨gone, post, rfl, -, hpost⟩ := remove_covered_shape L e
  rcases hpost with ⟨-, heq⟩ | ⟨z, r, rfl, hez, heq⟩
  · rw [heq]; exact sep_nil
  · have hzr := (sep_append.mp hL).2.1
    rw [heq, sep_cons]
    refine ⟨?_, fun y hy => ?_, hzr.tail⟩
    · split
      · exact hez
      · exact hzr.head_lt
    · have := hzr.hi_lt_lo hy
      split <;> exact this

/-- What is left covers exactly the old GNOs from `end` on. -/
theorem remove_covered_covers (hL : Sep Interval.start Interval.end L) :
    covers Interval.start Interval.end (remove_covered L e) =
      covers Interval.start Interval.end L ∩ Set.Ici e := by
  obtain ⟨gone, post, rfl, hgone, hpost⟩ := remove_covered_shape L e
  have hlow : ∀ g ∈ covers Interval.start Interval.end gone, g < e := by
    rintro g ⟨y, hy, -, hgy⟩
    exact lt_of_lt_of_le hgy (hgone y hy)
  ext g
  simp only [covers_append, Set.mem_inter_iff, Set.mem_union, Set.mem_Ici]
  rcases hpost with ⟨rfl, heq⟩ | ⟨z, r, rfl, hez, heq⟩
  · rw [heq]
    simp only [covers_nil, Set.mem_empty_iff_false, or_false, false_iff, not_and, not_le]
    exact hlow g
  · have hzr := (sep_append.mp hL).2.1
    have hz := hzr.head_lt
    -- the trimmed head covers the part of `z` from `end` on
    have htrim : Set.Ico (if z.start < e then (⟨e, z.end⟩ : Interval) else z).start
        (if z.start < e then (⟨e, z.end⟩ : Interval) else z).end =
          Set.Ico z.start z.end ∩ Set.Ici e := by
      ext g
      by_cases hzs : z.start < e
      · simp only [hzs, if_true, Set.mem_Ico, Set.mem_inter_iff, Set.mem_Ici]
        omega
      · simp only [hzs, if_false, Set.mem_Ico, Set.mem_inter_iff, Set.mem_Ici]
        omega
    rw [heq, covers_cons, covers_cons, htrim]
    simp only [Set.mem_union, Set.mem_inter_iff, Set.mem_Ici]
    constructor
    · rintro (⟨hzg, hge⟩ | hr)
      · exact ⟨Or.inr (Or.inl hzg), hge⟩
      · exact ⟨Or.inr (Or.inr hr), le_of_lt (lt_trans hez (hzr.hi_lt_of_mem_tail hr))⟩
    · rintro ⟨hg | hzg | hr, hge⟩
      · exact absurd (hlow g hg) (not_lt.mpr hge)
      · exact Or.inl ⟨hzg, hge⟩
      · exact Or.inr hr

/-- Every interval left is part of an interval of `L`. -/
theorem remove_covered_mem {y : Interval} (hy : y ∈ remove_covered L e) :
    ∃ z ∈ L, z.start ≤ y.start ∧ y.end = z.end := by
  obtain ⟨gone, post, rfl, -, hpost⟩ := remove_covered_shape L e
  rcases hpost with ⟨-, heq⟩ | ⟨z, r, rfl, -, heq⟩
  · rw [heq] at hy; exact absurd hy (List.not_mem_nil)
  · rw [heq] at hy
    rcases List.mem_cons.mp hy with rfl | hy
    · refine ⟨z, by simp, ?_, ?_⟩
      · split
        · exact le_of_lt ‹_›
        · exact le_refl _
      · split <;> rfl
    · exact ⟨y, by simp [hy], le_refl _, rfl⟩

end RemoveCovered

/-- **Closed form of `remove_gno_interval`.** The intervals that end by `start` are
    skipped; the call then works from the first one that ends after it. -/
theorem remove_gno_interval_shape : ∀ (M : List Interval) (s e : Int),
    ∃ skip, (∀ y ∈ skip, y.end ≤ s) ∧
      ((M = skip ∧ remove_gno_interval M s e = (skip, skip.length)) ∨
        ∃ iv rest, M = skip ++ iv :: rest ∧ s < iv.end ∧
          remove_gno_interval M s e =
            (skip ++ (remove_from iv rest s e).1, skip.length + (remove_from iv rest s e).2))
  | [], s, e => ⟨[], by simp, Or.inl ⟨rfl, rfl⟩⟩
  | iv :: rest, s, e => by
    by_cases hafter : iv.end > s
    · exact ⟨[], by simp, Or.inr ⟨iv, rest, rfl, hafter, by simp [remove_gno_interval, hafter]⟩⟩
    · obtain ⟨skip, hskip, hrest⟩ := remove_gno_interval_shape rest s e
      refine ⟨iv :: skip, ?_, ?_⟩
      · intro y hy
        rcases List.mem_cons.mp hy with rfl | hy
        · omega
        · exact hskip y hy
      · rcases hrest with ⟨hM, heq⟩ | ⟨iv', rest', hM, hs, heq⟩
        · left
          refine ⟨by rw [hM], ?_⟩
          simp only [remove_gno_interval, hafter, if_false, heq, List.length_cons]
        · right
          refine ⟨iv', rest', by rw [hM]; rfl, hs, ?_⟩
          simp only [remove_gno_interval, hafter, if_false, heq, List.cons_append,
            List.length_cons]
          congr 1
          omega

section RemoveFrom

variable {iv : Interval} {rest : List Interval} {s e : Int}

theorem remove_from_sep (hsep : Sep Interval.start Interval.end (iv :: rest))
    (hs : s < iv.end) (hse : s < e) : Sep Interval.start Interval.end (remove_from iv rest s e).1 := by
  have hiv := hsep.head_lt
  unfold remove_from
  split
  · split
    · -- split in two: `[iv.start, start)` and `[end, iv.end)`
      refine sep_cons.mpr ⟨‹_›, ?_, sep_cons.mpr ⟨‹_›, fun y hy => hsep.hi_lt_lo hy, hsep.tail⟩⟩
      intro y hy
      rcases List.mem_cons.mp hy with rfl | hy
      · show s < e
        omega
      · have := hsep.hi_lt_lo hy
        show s < y.start
        omega
    · refine sep_cons.mpr ⟨‹_›, fun y hy => ?_, remove_covered_sep hsep.tail⟩
      obtain ⟨z, hz, hzy, -⟩ := remove_covered_mem hy
      have := hsep.hi_lt_lo hz
      show s < y.start
      omega
  · exact remove_covered_sep hsep

theorem remove_from_covers (hsep : Sep Interval.start Interval.end (iv :: rest))
    (hs : s < iv.end) (hse : s < e) :
    covers Interval.start Interval.end (remove_from iv rest s e).1 =
      covers Interval.start Interval.end (iv :: rest) \ Set.Ico s e := by
  have hiv := hsep.head_lt
  have htail : ∀ g ∈ covers Interval.start Interval.end rest, iv.end < g :=
    fun g hg => hsep.hi_lt_of_mem_tail hg
  unfold remove_from
  split
  · split
    · ext g
      simp only [covers_cons, Set.mem_union, Set.mem_sdiff, Set.mem_Ico]
      constructor
      · rintro (⟨h₁, h₂⟩ | ⟨h₁, h₂⟩ | hr)
        · exact ⟨Or.inl ⟨h₁, by omega⟩, by omega⟩
        · exact ⟨Or.inl ⟨by omega, h₂⟩, by omega⟩
        · have := htail g hr
          exact ⟨Or.inr hr, by omega⟩
      · rintro ⟨⟨h₁, h₂⟩ | hr, hn⟩
        · by_cases hgs : g < s
          · exact Or.inl ⟨h₁, hgs⟩
          · exact Or.inr (Or.inl ⟨by omega, h₂⟩)
        · exact Or.inr (Or.inr hr)
    · rw [covers_cons, covers_cons, remove_covered_covers hsep.tail]
      ext g
      simp only [Set.mem_union, Set.mem_sdiff, Set.mem_inter_iff, Set.mem_Ico, Set.mem_Ici]
      constructor
      · rintro (⟨h₁, h₂⟩ | ⟨hr, hge⟩)
        · exact ⟨Or.inl ⟨h₁, by omega⟩, by omega⟩
        · exact ⟨Or.inr hr, by omega⟩
      · rintro ⟨⟨h₁, h₂⟩ | hr, hn⟩
        · exact Or.inl ⟨h₁, by omega⟩
        · have := htail g hr
          exact Or.inr ⟨hr, by omega⟩
  · rw [remove_covered_covers hsep]
    ext g
    simp only [Set.mem_inter_iff, Set.mem_sdiff, Set.mem_Ici, Set.mem_Ico]
    have hlo : g ∈ covers Interval.start Interval.end (iv :: rest) → iv.start ≤ g :=
      hsep.lo_le_of_mem
    constructor
    · rintro ⟨hg, hge⟩
      exact ⟨hg, by omega⟩
    · rintro ⟨hg, hn⟩
      have := hlo hg
      exact ⟨hg, by omega⟩

/-- Every interval the call leaves is inside an interval it was given. -/
theorem remove_from_mem {y : Interval} (hs : s < iv.end) (hse : s < e)
    (hy : y ∈ (remove_from iv rest s e).1) :
    ∃ z ∈ iv :: rest, z.start ≤ y.start ∧ y.end ≤ z.end := by
  unfold remove_from at hy
  split at hy
  · split at hy
    · simp only [List.mem_cons] at hy
      rcases hy with rfl | rfl | hy
      · exact ⟨iv, List.mem_cons_self, le_refl _, le_of_lt hs⟩
      · exact ⟨iv, List.mem_cons_self, by dsimp only; omega, le_refl _⟩
      · exact ⟨y, List.mem_cons_of_mem _ hy, le_refl _, le_refl _⟩
    · rcases List.mem_cons.mp hy with rfl | hy
      · exact ⟨iv, List.mem_cons_self, le_refl _, le_of_lt hs⟩
      · obtain ⟨z, hz, h₁, h₂⟩ := remove_covered_mem hy
        exact ⟨z, List.mem_cons_of_mem _ hz, h₁, le_of_eq h₂⟩
  · obtain ⟨z, hz, h₁, h₂⟩ := remove_covered_mem hy
    exact ⟨z, hz, h₁, le_of_eq h₂⟩

/-- The iterator is left past everything that ends by `start`: the intervals it steps
    over are the truncated one. -/
theorem remove_from_iter :
    (remove_from iv rest s e).2 ≤ (remove_from iv rest s e).1.length ∧
      ∀ y ∈ (remove_from iv rest s e).1.take (remove_from iv rest s e).2, y.end ≤ s := by
  unfold remove_from
  split
  · split
    · exact ⟨by simp, by simp⟩
    · exact ⟨by simp, by simp⟩
  · exact ⟨by simp, by simp⟩

end RemoveFrom

section RemoveAt

variable {l : List Interval} {k : Nat} {s e : Int}

/-- Removing keeps the list in normal form, wherever the iterator is. -/
theorem remove_gno_interval_at_normal (hl : Normal l) (hse : s < e) :
    Normal (remove_gno_interval_at l k s e).1 := by
  obtain ⟨skip, hskip, hM⟩ := remove_gno_interval_shape (l.drop k) s e
  have hsplit := List.take_append_drop k l
  rcases hM with ⟨hM, heq⟩ | ⟨iv, rest, hM, hs, heq⟩
  · simp only [remove_gno_interval_at, heq, ← hM, hsplit]
    exact hl
  · have hl' := hl.sep
    rw [← hsplit, hM, ← List.append_assoc, sep_append] at hl'
    obtain ⟨hA, hB, hAB⟩ := hl'
    have hmem : ∀ z ∈ iv :: rest, z ∈ l := fun z hz => by
      rw [← hsplit, hM]; simp only [List.mem_append]; tauto
    simp only [remove_gno_interval_at, heq, ← List.append_assoc]
    refine ⟨sep_append.mpr ⟨hA, remove_from_sep hB hs hse, ?_⟩, ?_⟩
    · intro x hx y hy
      obtain ⟨z, hz, hzy, -⟩ := remove_from_mem hs hse hy
      exact lt_of_lt_of_le (hAB x hx z hz) hzy
    · intro y hy
      rcases List.mem_append.mp hy with hy | hy
      · rw [← hsplit, hM, ← List.append_assoc] at hl
        exact hl.bounds (List.mem_append_left _ hy)
      · obtain ⟨z, hz, h₁, h₂⟩ := remove_from_mem hs hse hy
        have := hl.bounds (hmem z hz)
        exact ⟨by omega, by omega⟩

/-- Removing takes away exactly the GNOs of `[start, end)`. -/
theorem remove_gno_interval_at_covers (hl : Normal l) (hpre : ∀ y ∈ l.take k, y.end ≤ s)
    (hse : s < e) :
    covers Interval.start Interval.end (remove_gno_interval_at l k s e).1 =
      covers Interval.start Interval.end l \ Set.Ico s e := by
  obtain ⟨skip, hskip, hM⟩ := remove_gno_interval_shape (l.drop k) s e
  have hsplit := List.take_append_drop k l
  -- the prefix and the skipped intervals lie below `start`: removing leaves them
  have hbelow : ∀ A : List Interval, (∀ y ∈ A, y.end ≤ s) →
      covers Interval.start Interval.end A \ Set.Ico s e = covers Interval.start Interval.end A := by
    intro A hA
    ext g
    simp only [Set.mem_sdiff, Set.mem_Ico, and_iff_left_iff_imp]
    rintro ⟨y, hy, -, hgy⟩ ⟨hsg, -⟩
    have := hA y hy
    omega
  rcases hM with ⟨hM, heq⟩ | ⟨iv, rest, hM, hs, heq⟩
  · simp only [remove_gno_interval_at, heq]
    conv_rhs => rw [← hsplit, hM]
    rw [covers_append, Set.union_sdiff_distrib, hbelow _ hpre, hbelow _ hskip]
  · have hsep := hl.sep
    rw [← hsplit, hM, ← List.append_assoc, sep_append] at hsep
    simp only [remove_gno_interval_at, heq]
    conv_rhs => rw [← hsplit, hM]
    simp only [covers_append, Set.union_sdiff_distrib, hbelow _ hpre, hbelow _ hskip,
      remove_from_covers hsep.2.1 hs hse]

/-- After the call the iterator is inside the list, past everything that ends by
    `start`. -/
theorem remove_gno_interval_at_iter (hk : k ≤ l.length) (hpre : ∀ y ∈ l.take k, y.end ≤ s) :
    (remove_gno_interval_at l k s e).2 ≤ (remove_gno_interval_at l k s e).1.length ∧
      ∀ y ∈ (remove_gno_interval_at l k s e).1.take (remove_gno_interval_at l k s e).2,
        y.end ≤ s := by
  obtain ⟨skip, hskip, hM⟩ := remove_gno_interval_shape (l.drop k) s e
  have hlen : (l.take k).length = k := by simp [List.length_take, Nat.min_eq_left hk]
  have htake : ∀ (A B : List Interval) (j : Nat), (A ++ B).take (A.length + j) = A ++ B.take j :=
    fun A B j => by rw [List.take_append, List.take_of_length_le (by omega)]; simp
  rcases hM with ⟨-, heq⟩ | ⟨iv, rest, -, hs, heq⟩
  · simp only [remove_gno_interval_at, heq]
    have hfull : (l.take k ++ skip).length = k + skip.length := by simp [hlen]
    refine ⟨le_of_eq hfull.symm, ?_⟩
    rw [List.take_of_length_le (le_of_eq hfull)]
    intro y hy
    rcases List.mem_append.mp hy with hy | hy
    · exact hpre y hy
    · exact hskip y hy
  · obtain ⟨hj, hj'⟩ := @remove_from_iter iv rest s e
    simp only [remove_gno_interval_at, heq]
    refine ⟨by simp [hlen]; omega, ?_⟩
    have hpos : k + (skip.length + (remove_from iv rest s e).2) =
        (l.take k).length + (skip.length + (remove_from iv rest s e).2) := by rw [hlen]
    rw [hpos, htake, htake]
    intro y hy
    rcases List.mem_append.mp hy with hy | hy
    · exact hpre y hy
    · rcases List.mem_append.mp hy with hy | hy
      · exact hskip y hy
      · exact hj' y hy

end RemoveAt

end Gtid
end AliSql
