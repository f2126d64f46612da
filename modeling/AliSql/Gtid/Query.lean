import Mathlib
import AliSql.Gtid.Set

/-!
# Queries on GTID sets: `contains_gtid`, `is_subset`, `is_intersection_nonempty`

The read-only questions `rpl_gtid_set.cc` answers about sets in normal form. Each walks
one SIDNO's interval list, or two of them side by side:

* `contains_gtid` stops at the first interval that does not end before the GNO;
* `is_interval_subset` moves an iterator over the superset's intervals past those that
  end before the current subset interval starts (`start > end`), then asks the one it
  stops at to cover it;
* `is_interval_intersection_nonempty` moves the other iterator past the intervals that
  end by the current interval's start (`end <= start`), then asks the one it stops at
  to begin before the current interval ends.

An iterator is the list of intervals from its position on, and `ivit.next()` is the
list's tail, so each skip is a `List.dropWhile`. The two sets share one `Sid_map`, so
`super_sidno` and `other_sidno` are `sidno`; the branch that translates SIDNOs between
two maps is not modelled.

What is proved (`gtid_set_queries_denote`): over sets in normal form the three answers
are those of the sets the sets denote. The skip is exact because of the normal form:
`mem_covers_dropWhile` says skipping intervals that end by a point does not change
whether it is covered, and strict separation says the point where an interval ends is
covered by no other.
-/

set_option autoImplicit false

namespace AliSql
namespace Gtid

open IntervalList

/-! ## The model -/

/-- The loop of `contains_gtid` over the intervals of the SIDNO. -/
def contains_gtid.loop (gno : Int) : List Interval → Bool
  | [] => false
  | iv :: rest => if gno < iv.start then false else if gno < iv.end then true else loop gno rest

/-- `Gtid_set::contains_gtid(sidno, gno)`. -/
def Gtid_set.contains_gtid (s : Gtid_set) (sidno : Nat) (gno : Int) : Bool :=
  if sidno > s.get_max_sidno then false else contains_gtid.loop gno (s.ivs sidno)

/-- `Gtid_set::is_interval_subset(sub, super)`: the `do … while (sub_iv != NULL)` loop,
    entered with a first subset interval. Before each subset interval the superset's
    iterator skips the intervals with `sub_iv->start > super_iv->end`. -/
def is_interval_subset : List Interval → List Interval → Bool
  | [], _ => true
  | sub_iv :: rest, super =>
    match super.dropWhile (fun super_iv => sub_iv.start > super_iv.end) with
    | [] => false
    | super_iv :: super_rest =>
      if sub_iv.start < super_iv.start ∨ sub_iv.end > super_iv.end then false
      else is_interval_subset rest (super_iv :: super_rest)

/-- `Gtid_set::is_subset(super)` for a superset over the same `Sid_map`: every SIDNO of
    `this` with an interval is a SIDNO of `super` whose intervals cover its own. -/
def Gtid_set.is_subset (s super : Gtid_set) : Bool :=
  (List.range' 1 s.get_max_sidno).all fun sidno =>
    s.ivs sidno = [] ||
      (decide (sidno ≤ super.get_max_sidno) && is_interval_subset (s.ivs sidno) (super.ivs sidno))

/-- `Gtid_set::is_interval_intersection_nonempty(ivit1, ivit2)`: before each interval of
    the first list the second iterator skips the intervals with `iv2->end <= iv1->start`. -/
def is_interval_intersection_nonempty : List Interval → List Interval → Bool
  | [], _ => false
  | iv1 :: rest1, l2 =>
    match l2.dropWhile (fun iv2 => iv2.end ≤ iv1.start) with
    | [] => false
    | iv2 :: rest2 =>
      if iv2.start < iv1.end then true else is_interval_intersection_nonempty rest1 (iv2 :: rest2)

/-- `Gtid_set::is_intersection_nonempty(other)` for `other` over the same `Sid_map`. -/
def Gtid_set.is_intersection_nonempty (s other : Gtid_set) : Bool :=
  (List.range' 1 s.get_max_sidno).any fun sidno =>
    s.ivs sidno ≠ [] && decide (sidno ≤ other.get_max_sidno) &&
      is_interval_intersection_nonempty (s.ivs sidno) (other.ivs sidno)

example : is_interval_subset [⟨2, 3⟩, ⟨5, 6⟩] [⟨1, 4⟩, ⟨5, 9⟩] = true := by decide
example : is_interval_subset [⟨4, 6⟩] [⟨1, 4⟩, ⟨5, 9⟩] = false := by decide
example : is_interval_intersection_nonempty [⟨1, 3⟩, ⟨7, 8⟩] [⟨3, 7⟩, ⟨8, 9⟩] = false := by decide

/-! ## One SIDNO -/

/-- `contains_gtid`'s loop answers whether the list covers the GNO. -/
theorem contains_gtid.loop_iff (gno : Int) :
    ∀ {l : List Interval}, Normal l →
      (contains_gtid.loop gno l = true ↔ gno ∈ covers Interval.start Interval.end l)
  | [], _ => by simp [contains_gtid.loop]
  | iv :: rest, hl => by
    rw [contains_gtid.loop]
    by_cases hs : gno < iv.start
    · -- the head's start is the least covered GNO
      simp only [hs, if_true, Bool.false_eq_true, false_iff]
      exact fun hmem => absurd (hl.sep.lo_le_of_mem hmem) (not_le.mpr hs)
    · by_cases he : gno < iv.end
      · simp only [hs, he, if_true, if_false, true_iff]
        rw [covers_cons]
        exact Or.inl ⟨not_lt.mp hs, he⟩
      · simp only [hs, he, if_false]
        rw [loop_iff gno hl.tail, covers_cons, Set.mem_union, Set.mem_Ico]
        exact ⟨Or.inr, fun h => h.resolve_left fun hI => he hI.2⟩

/-- Every GNO from an interval's start on is covered by a list exactly when it is covered
    once the intervals ending before that start are skipped, both skips of the walks. -/
theorem mem_covers_skip {l : List Interval} {a g : Int} (hg : a ≤ g) {p : Interval → Bool}
    (hp : ∀ y, p y = true → y.end ≤ a) :
    g ∈ covers Interval.start Interval.end (l.dropWhile p) ↔
      g ∈ covers Interval.start Interval.end l :=
  mem_covers_dropWhile fun y hy => le_trans (hp y hy) hg

/-- What an iterator has left after a skip is in normal form. -/
theorem Normal.dropWhile {l : List Interval} (hl : Normal l) (p : Interval → Bool) :
    Normal (l.dropWhile p) :=
  ⟨hl.sep.sublist (List.dropWhile_sublist _),
    fun _ hiv => hl.bounds ((List.dropWhile_sublist _).subset hiv)⟩

/-- `is_interval_subset` answers whether the first list's GNOs are all in the second's.
    Induction on the subset list, for every position of the superset's iterator: the
    superset's intervals skipped end before every GNO still to be checked. -/
theorem is_interval_subset_iff :
    ∀ {sub super : List Interval}, Normal sub → Normal super →
      (is_interval_subset sub super = true ↔
        covers Interval.start Interval.end sub ⊆ covers Interval.start Interval.end super)
  | [], _, _, _ => by simp [is_interval_subset]
  | x :: rest, super, hsub, hsuper => by
    have hx := hsub.sep.head_lt
    -- what the skip keeps covers the same GNOs from `x.start` on
    have hskip : ∀ g, x.start ≤ g →
        (g ∈ covers Interval.start Interval.end
          (super.dropWhile fun y => x.start > y.end) ↔ g ∈ covers Interval.start Interval.end super) :=
      fun g hg => mem_covers_skip hg fun y hy => le_of_lt (by simpa using hy)
    have hxs : x.start ∈ covers Interval.start Interval.end (x :: rest) := by
      rw [covers_cons]
      exact Or.inl ⟨le_rfl, hx⟩
    rw [is_interval_subset]
    split
    · -- nothing of the superset is left to cover `x.start`
      rename_i hnil
      simp only [Bool.false_eq_true, false_iff]
      intro hsubset
      have := (hskip x.start le_rfl).mpr (hsubset hxs)
      rw [hnil, covers_nil] at this
      exact this
    · rename_i y ys hcons
      have hy : ¬ x.start > y.end := by simpa using eq_false_of_dropWhile_eq_cons hcons
      have hkept : Normal (y :: ys) := hcons ▸ hsuper.dropWhile _
      have hy' := hkept.sep.head_lt
      split
      · rename_i hbad
        simp only [Bool.false_eq_true, false_iff]
        intro hsubset
        rcases hbad with hlt | hgt
        · -- `x.start` lies before everything the superset has left
          have := (hskip x.start le_rfl).mpr (hsubset hxs)
          rw [hcons] at this
          exact absurd (hkept.sep.lo_le_of_mem this) (not_le.mpr hlt)
        · -- `y.end` is in `x`, and strict separation keeps it out of the superset
          have hin : y.end ∈ covers Interval.start Interval.end (x :: rest) := by
            rw [covers_cons]
            exact Or.inl ⟨not_lt.mp hy, hgt⟩
          have := (hskip y.end (not_lt.mp hy)).mpr (hsubset hin)
          rw [hcons] at this
          exact hkept.sep.hi_not_mem this
      · rename_i hgood
        simp only [not_or, not_lt] at hgood
        obtain ⟨hle₁, hle₂⟩ := hgood
        rw [is_interval_subset_iff hsub.tail hkept, covers_cons x rest, Set.union_subset_iff]
        constructor
        · intro hsubset
          refine ⟨fun g hg => ?_, fun g hg => ?_⟩
          · -- `x` lies inside `y`
            have hgy : g ∈ covers Interval.start Interval.end (y :: ys) := by
              rw [covers_cons]
              exact Or.inl ⟨le_trans hle₁ hg.1, lt_of_lt_of_le hg.2 hle₂⟩
            rw [← hcons] at hgy
            exact (hskip g hg.1).mp hgy
          · -- the rest of the subset lies past `x.end`, so past the skipped intervals
            have hgx : x.end < g := hsub.sep.hi_lt_of_mem_tail hg
            have hgy := hsubset hg
            rw [← hcons] at hgy
            exact (hskip g (by omega)).mp hgy
        · rintro ⟨-, hsubset⟩ g hg
          have hgx : x.end < g := hsub.sep.hi_lt_of_mem_tail hg
          rw [← hcons]
          exact (hskip g (by omega)).mpr (hsubset hg)

/-- `is_interval_intersection_nonempty` answers whether the two lists share a GNO.
    Induction on the first list, for every position of the second iterator: the
    intervals skipped end by the start of every interval still to be checked. -/
theorem is_interval_intersection_nonempty_iff :
    ∀ {l1 l2 : List Interval}, Normal l1 → Normal l2 →
      (is_interval_intersection_nonempty l1 l2 = true ↔
        ∃ g, g ∈ covers Interval.start Interval.end l1 ∧ g ∈ covers Interval.start Interval.end l2)
  | [], _, _, _ => by simp [is_interval_intersection_nonempty]
  | x :: rest, l2, hl1, hl2 => by
    have hx := hl1.sep.head_lt
    have hskip : ∀ g, x.start ≤ g →
        (g ∈ covers Interval.start Interval.end
          (l2.dropWhile fun y => y.end ≤ x.start) ↔ g ∈ covers Interval.start Interval.end l2) :=
      fun g hg => mem_covers_skip hg fun y hy => by simpa using hy
    -- every GNO of the first list is at least `x.start`
    have hge : ∀ g ∈ covers Interval.start Interval.end (x :: rest), x.start ≤ g :=
      fun g hg => hl1.sep.lo_le_of_mem hg
    rw [is_interval_intersection_nonempty]
    split
    · rename_i hnil
      simp only [Bool.false_eq_true, false_iff, not_exists, not_and]
      intro g hg hg2
      have := (hskip g (hge g hg)).mpr hg2
      rw [hnil, covers_nil] at this
      exact this
    · rename_i y ys hcons
      have hy : ¬ y.end ≤ x.start := by simpa using eq_false_of_dropWhile_eq_cons hcons
      have hkept : Normal (y :: ys) := hcons ▸ hl2.dropWhile _
      have hy' := hkept.sep.head_lt
      split
      · -- `max x.start y.start` is in both intervals
        rename_i hlt
        simp only [true_iff]
        refine ⟨max x.start y.start, ?_, ?_⟩
        · rw [covers_cons]
          exact Or.inl ⟨le_max_left _ _, max_lt hx hlt⟩
        · have hin : max x.start y.start ∈ covers Interval.start Interval.end (y :: ys) := by
            rw [covers_cons]
            exact Or.inl ⟨le_max_right _ _, max_lt (not_le.mp hy) hy'⟩
          rw [← hcons] at hin
          exact (hskip _ (le_max_left _ _)).mp hin
      · rename_i hge'
        have hxy : x.end ≤ y.start := not_lt.mp hge'
        rw [is_interval_intersection_nonempty_iff hl1.tail hkept]
        constructor
        · rintro ⟨g, hg1, hg2⟩
          have hgx : x.end < g := hl1.sep.hi_lt_of_mem_tail hg1
          rw [← hcons] at hg2
          exact ⟨g, by rw [covers_cons]; exact Or.inr hg1, (hskip g (by omega)).mp hg2⟩
        · -- a common GNO is in the kept list, so past `y.start`, so past `x`
          rintro ⟨g, hg1, hg2⟩
          have hg2' := (hskip g (hge g hg1)).mpr hg2
          rw [hcons] at hg2'
          have hgy := hkept.sep.lo_le_of_mem hg2'
          rw [covers_cons, Set.mem_union, Set.mem_Ico] at hg1
          refine ⟨g, hg1.resolve_left fun h => ?_, hg2'⟩
          omega

/-! ## Whole sets -/

namespace Gtid_set

variable {s t : Gtid_set}

/-- A set in normal form holds no GTID of a SIDNO whose list is empty, and some GTID of
    one whose list is not. -/
theorem covers_ivs_eq_empty (hs : s.NF) (sidno : Nat) :
    covers Interval.start Interval.end (s.ivs sidno) = ∅ ↔ s.ivs sidno = [] :=
  (hs.ivs sidno).sep.covers_eq_empty

/-- Inclusion of what two sets denote, SIDNO by SIDNO. -/
theorem denote_subset_iff :
    s.denote ⊆ t.denote ↔ ∀ sidno, 1 ≤ sidno →
      covers Interval.start Interval.end (s.ivs sidno) ⊆ covers Interval.start Interval.end (t.ivs sidno) := by
  constructor
  · intro h sidno hsidno g hg
    exact (mem_denote.mp (h (mem_denote.mpr ⟨hsidno, hg⟩))).2
  · rintro h ⟨sidno, g⟩ hp
    obtain ⟨hsidno, hg⟩ := mem_denote.mp hp
    exact mem_denote.mpr ⟨hsidno, h sidno hsidno hg⟩

/-- A common element of what two sets denote, SIDNO by SIDNO. -/
theorem denote_inter_nonempty_iff :
    (s.denote ∩ t.denote).Nonempty ↔ ∃ sidno, 1 ≤ sidno ∧ ∃ g,
      g ∈ covers Interval.start Interval.end (s.ivs sidno) ∧
        g ∈ covers Interval.start Interval.end (t.ivs sidno) := by
  constructor
  · rintro ⟨⟨sidno, g⟩, hs', ht'⟩
    exact ⟨sidno, (mem_denote.mp hs').1, g, (mem_denote.mp hs').2, (mem_denote.mp ht').2⟩
  · rintro ⟨sidno, hsidno, g, hg, hg'⟩
    exact ⟨(sidno, g), mem_denote.mpr ⟨hsidno, hg⟩, mem_denote.mpr ⟨hsidno, hg'⟩⟩

/-- One round of `is_subset`'s loop: an empty list is covered by anything, and a
    non-empty one only by a SIDNO that `super` has. -/
theorem is_subset_round_iff (hs : s.NF) (ht : t.NF) (sidno : Nat) :
    (s.ivs sidno = [] ||
        (decide (sidno ≤ t.get_max_sidno) && is_interval_subset (s.ivs sidno) (t.ivs sidno))) = true ↔
      covers Interval.start Interval.end (s.ivs sidno) ⊆ covers Interval.start Interval.end (t.ivs sidno) := by
  by_cases he : s.ivs sidno = []
  · simp [he]
  · simp only [he, decide_false, Bool.false_or, Bool.and_eq_true, decide_eq_true_eq]
    rw [is_interval_subset_iff (hs.ivs sidno) (ht.ivs sidno)]
    refine ⟨And.right, fun h => ⟨?_, h⟩⟩
    -- past `super`'s last SIDNO its list is empty, and it covers nothing
    by_contra hgt
    rw [ivs_of_gt (not_le.mp hgt), covers_nil, Set.subset_empty_iff,
      covers_ivs_eq_empty hs] at h
    exact he h

/-- One round of `is_intersection_nonempty`'s loop. -/
theorem is_intersection_nonempty_round_iff (hs : s.NF) (ht : t.NF) (sidno : Nat) :
    (decide (s.ivs sidno ≠ []) && decide (sidno ≤ t.get_max_sidno) &&
        is_interval_intersection_nonempty (s.ivs sidno) (t.ivs sidno)) = true ↔
      ∃ g, g ∈ covers Interval.start Interval.end (s.ivs sidno) ∧
        g ∈ covers Interval.start Interval.end (t.ivs sidno) := by
  by_cases he : s.ivs sidno = []
  · simp [he]
  · simp only [he, ne_eq, not_false_eq_true, decide_true, Bool.true_and, Bool.and_eq_true,
      decide_eq_true_eq]
    rw [is_interval_intersection_nonempty_iff (hs.ivs sidno) (ht.ivs sidno)]
    refine ⟨And.right, fun h => ⟨?_, h⟩⟩
    by_contra hgt
    obtain ⟨g, -, hg⟩ := h
    rw [ivs_of_gt (not_le.mp hgt), covers_nil] at hg
    exact hg

/-- The SIDNOs `1 .. max_sidno` that the loops visit are all the SIDNOs with intervals. -/
theorem forall_range'_iff {P : Nat → Prop} (hP : ∀ sidno, s.ivs sidno = [] → P sidno) :
    (∀ sidno ∈ List.range' 1 s.get_max_sidno, P sidno) ↔ ∀ sidno, 1 ≤ sidno → P sidno := by
  simp only [List.mem_range'_1]
  refine ⟨fun h sidno hsidno => ?_, fun h sidno hsidno => h sidno hsidno.1⟩
  by_cases hle : sidno < 1 + s.get_max_sidno
  · exact h sidno ⟨hsidno, hle⟩
  · exact hP sidno (ivs_of_gt (by omega))

end Gtid_set

/-- **The GTID set queries answer for the sets denoted.** For two sets in normal form
    over one `Sid_map`: `contains_gtid` is membership, `is_subset` is inclusion and
    `is_intersection_nonempty` is a common GTID. -/
theorem gtid_set_queries_denote {A B : Gtid_set} (hA : A.NF) (hB : B.NF) :
    (∀ (sidno : Nat) (gno : Int), 1 ≤ sidno →
      (A.contains_gtid sidno gno = true ↔ (sidno, gno) ∈ A.denote)) ∧
      (A.is_subset B = true ↔ A.denote ⊆ B.denote) ∧
      (A.is_intersection_nonempty B = true ↔ (A.denote ∩ B.denote).Nonempty) := by
  refine ⟨fun sidno gno hsidno => ?_, ?_, ?_⟩
  · rw [Gtid_set.mem_denote, Gtid_set.contains_gtid]
    by_cases hgt : sidno > A.get_max_sidno
    · -- past the last SIDNO the list is empty
      simp only [hgt, if_true, Bool.false_eq_true, false_iff, not_and]
      intro _
      rw [Gtid_set.ivs_of_gt hgt, covers_nil]
      exact Set.notMem_empty gno
    · rw [if_neg hgt, contains_gtid.loop_iff gno (hA.ivs sidno)]
      exact ⟨fun h => ⟨hsidno, h⟩, And.right⟩
  · rw [Gtid_set.is_subset, List.all_eq_true, Gtid_set.denote_subset_iff]
    simp only [Gtid_set.is_subset_round_iff hA hB]
    exact Gtid_set.forall_range'_iff fun sidno he => by simp [he]
  · rw [Gtid_set.is_intersection_nonempty, List.any_eq_true, Gtid_set.denote_inter_nonempty_iff]
    simp only [Gtid_set.is_intersection_nonempty_round_iff hA hB]
    constructor
    · rintro ⟨sidno, hmem, h⟩
      exact ⟨sidno, (List.mem_range'_1.mp hmem).1, h⟩
    · rintro ⟨sidno, hsidno, g, hg, hg'⟩
      refine ⟨sidno, List.mem_range'_1.mpr ⟨hsidno, ?_⟩, g, hg, hg'⟩
      -- a SIDNO with a GTID is one of `A`'s
      by_contra hgt
      rw [Gtid_set.ivs_of_gt (by omega), covers_nil] at hg
      exact hg

/-- `A` holds GNOs 1 and 2 of SIDNO 1 and `B` GNOs 1 to 4: `A` is a subset of `B`. -/
theorem gtid_set_queries_denote_one_sidno :
    ∃ A B : Gtid_set, A.ivs 1 = [⟨1, 3⟩] ∧ B.ivs 1 = [⟨1, 5⟩] ∧ A.NF ∧ B.NF ∧
      A.is_subset B = true ∧
      (∀ (sidno : Nat) (gno : Int), 1 ≤ sidno →
        (A.contains_gtid sidno gno = true ↔ (sidno, gno) ∈ A.denote)) ∧
      (A.is_subset B = true ↔ A.denote ⊆ B.denote) ∧
      (A.is_intersection_nonempty B = true ↔ (A.denote ∩ B.denote).Nonempty) := by
  let A : Gtid_set := ⟨[[⟨1, 3⟩]], -1, none, Interval_memory.init.get_free_interval⟩
  let B : Gtid_set := ⟨[[⟨1, 5⟩]], -1, none, Interval_memory.init.get_free_interval⟩
  have hA : A.NF := by simp [A, Gtid_set.NF, Normal, IntervalList.Sep, MAX_GNO]
  have hB : B.NF := by simp [B, Gtid_set.NF, Normal, IntervalList.Sep, MAX_GNO]
  exact ⟨A, B, rfl, rfl, hA, hB, by decide, gtid_set_queries_denote hA hB⟩

end Gtid
end AliSql
