import Mathlib

/-!
# Lists of half-open intervals in normal form

A finite set of points of a linear order is often kept as a list of half-open
intervals `[lo x, hi x)`. The list is in *normal form* when every interval is
non-empty and each one ends **strictly** before the next begins: sorted, disjoint,
and never adjacent (`hi x = lo y` would be two intervals that ought to be one).

This file knows nothing about where the intervals come from. The element type `ι` is
arbitrary and is read through two projections `lo hi : ι → α`, so a client keeps its
own record type (with whatever field names its source uses) and instantiates the two
functions. What is proved here is what every such client needs:

* `covers` and its `cons`/`append` equations — the set a list denotes;
* `Sep` (the normal form) and its `cons` decomposition;
* `mem_covers_dropWhile`: skipping the intervals that end before a point does not
  change whether the point is covered, the step of every merge walk;
* the two facts about a normal-form list that drive every merge and split proof:
  its head's `lo` is the least covered point (`Sep.lo_le_of_mem`), and nothing in
  its tail reaches back to the head's `hi` (`Sep.hi_lt_of_mem_tail`);
* **uniqueness of the normal form** (`Sep.map_eq_of_covers_eq`): two normal-form
  lists that cover the same set are the same list of endpoints. This is what turns
  "the decoded set denotes the same points" into "the decoded set *is* the same
  interval list".
-/

set_option autoImplicit false

namespace IntervalList

variable {ι α : Type*} [LinearOrder α] (lo hi : ι → α)

/-- The points a list of intervals covers: the union of its `[lo x, hi x)`. -/
def covers (l : List ι) : Set α := {g | ∃ x ∈ l, lo x ≤ g ∧ g < hi x}

/-- Normal form: every interval non-empty, and every interval ends strictly before
    each later one begins. -/
def Sep (l : List ι) : Prop :=
  (∀ x ∈ l, lo x < hi x) ∧ l.Pairwise (fun x y => hi x < lo y)

variable {lo hi}

@[simp] theorem covers_nil : covers lo hi ([] : List ι) = ∅ := by
  simp [covers]

@[simp] theorem covers_cons (x : ι) (l : List ι) :
    covers lo hi (x :: l) = Set.Ico (lo x) (hi x) ∪ covers lo hi l := by
  ext g
  simp [covers]

theorem covers_append (l m : List ι) :
    covers lo hi (l ++ m) = covers lo hi l ∪ covers lo hi m := by
  induction l with
  | nil => simp
  | cons x l ih => rw [List.cons_append, covers_cons, covers_cons, ih, Set.union_assoc]

@[simp] theorem sep_nil : Sep lo hi ([] : List ι) := by
  simp [Sep]

theorem sep_cons {x : ι} {l : List ι} :
    Sep lo hi (x :: l) ↔ lo x < hi x ∧ (∀ y ∈ l, hi x < lo y) ∧ Sep lo hi l := by
  simp only [Sep, List.mem_cons, forall_eq_or_imp, List.pairwise_cons]
  tauto

theorem Sep.tail {x : ι} {l : List ι} (h : Sep lo hi (x :: l)) : Sep lo hi l :=
  (sep_cons.mp h).2.2

theorem Sep.head_lt {x : ι} {l : List ι} (h : Sep lo hi (x :: l)) : lo x < hi x :=
  (sep_cons.mp h).1

theorem Sep.sublist {l m : List ι} (h : Sep lo hi m) (hs : l.Sublist m) : Sep lo hi l :=
  ⟨fun x hx => h.1 x (hs.subset hx), h.2.sublist hs⟩

theorem sep_append {l m : List ι} :
    Sep lo hi (l ++ m) ↔ Sep lo hi l ∧ Sep lo hi m ∧ ∀ x ∈ l, ∀ y ∈ m, hi x < lo y := by
  simp only [Sep, List.mem_append, List.pairwise_append]
  constructor
  · rintro ⟨hlt, hl, hm, hlm⟩
    exact ⟨⟨fun x hx => hlt x (Or.inl hx), hl⟩, ⟨fun x hx => hlt x (Or.inr hx), hm⟩, hlm⟩
  · rintro ⟨⟨hl₁, hl₂⟩, ⟨hm₁, hm₂⟩, hlm⟩
    exact ⟨fun x hx => hx.elim (hl₁ x) (hm₁ x), hl₂, hm₂, hlm⟩

/-- In a normal-form list, everything before position `k` ends before the interval at
    position `k` begins. -/
theorem Sep.hi_lt_lo_of_mem_take {l : List ι} (h : Sep lo hi l) {k : ℕ} {p : ι}
    (hp : l[k]? = some p) {y : ι} (hy : y ∈ l.take k) : hi y < lo p := by
  have hsplit := List.take_append_drop k l
  obtain ⟨hk, hpk⟩ := List.getElem?_eq_some_iff.mp hp
  have hd : l.drop k = p :: l.drop (k + 1) := by
    rw [List.drop_eq_getElem_cons hk, hpk]
  rw [← hsplit, hd, sep_append] at h
  exact h.2.2 y hy p List.mem_cons_self

/-- Every interval of a normal-form list's tail begins past the head's end. -/
theorem Sep.hi_lt_lo {x : ι} {l : List ι} (h : Sep lo hi (x :: l)) {y : ι} (hy : y ∈ l) :
    hi x < lo y :=
  (sep_cons.mp h).2.1 y hy

/-- Nothing the tail covers reaches back to the head's `hi`. -/
theorem Sep.hi_lt_of_mem_tail {x : ι} {l : List ι} (h : Sep lo hi (x :: l)) {g : α}
    (hg : g ∈ covers lo hi l) : hi x < g := by
  obtain ⟨y, hy, hyg, -⟩ := hg
  exact lt_of_lt_of_le (h.hi_lt_lo hy) hyg

/-- The head's `lo` is a lower bound of everything the list covers. -/
theorem Sep.lo_le_of_mem {x : ι} {l : List ι} (h : Sep lo hi (x :: l)) {g : α}
    (hg : g ∈ covers lo hi (x :: l)) : lo x ≤ g := by
  rw [covers_cons] at hg
  rcases hg with ⟨hxg, -⟩ | hg
  · exact hxg
  · exact le_of_lt (lt_trans h.head_lt (h.hi_lt_of_mem_tail hg))

/-- The head's `hi` is a point the list does not cover. -/
theorem Sep.hi_not_mem {x : ι} {l : List ι} (h : Sep lo hi (x :: l)) :
    hi x ∉ covers lo hi (x :: l) := by
  rw [covers_cons]
  rintro (⟨-, hlt⟩ | hg)
  · exact lt_irrefl _ hlt
  · exact lt_irrefl _ (h.hi_lt_of_mem_tail hg)

/-- A normal-form list covers nothing exactly when it is empty. -/
theorem Sep.covers_eq_empty {l : List ι} (h : Sep lo hi l) :
    covers lo hi l = ∅ ↔ l = [] := by
  cases l with
  | nil => simp
  | cons x l =>
    simp only [reduceCtorEq, iff_false]
    intro he
    have hx : lo x ∈ covers lo hi (x :: l) := by
      rw [covers_cons]
      exact Or.inl ⟨le_refl _, h.head_lt⟩
    rw [he] at hx
    exact hx

/-- The tail of a normal-form list covers exactly what the list covers past the
    head's interval. -/
theorem Sep.covers_tail {x : ι} {l : List ι} (h : Sep lo hi (x :: l)) :
    covers lo hi l = covers lo hi (x :: l) \ Set.Ico (lo x) (hi x) := by
  ext g
  constructor
  · intro hg
    refine ⟨by rw [covers_cons]; exact Or.inr hg, fun hI => ?_⟩
    exact lt_irrefl _ (lt_trans hI.2 (h.hi_lt_of_mem_tail hg))
  · rintro ⟨hg, hn⟩
    rw [covers_cons] at hg
    exact hg.resolve_left hn

/-- Dropping the intervals in front that all end by `g` keeps whether `g` is covered:
    the step of a merge walk that skips what lies before the point it looks at. -/
theorem mem_covers_dropWhile {l : List ι} {p : ι → Bool} {g : α}
    (hp : ∀ x, p x = true → hi x ≤ g) :
    g ∈ covers lo hi (l.dropWhile p) ↔ g ∈ covers lo hi l := by
  conv_rhs => rw [← List.takeWhile_append_dropWhile (p := p) (l := l)]
  rw [covers_append, Set.mem_union, or_iff_right]
  rintro ⟨x, hx, -, hlt⟩
  exact absurd (hp x (List.mem_takeWhile_imp hx)) (not_le.mpr hlt)

/-- The interval a skip stops at is one it would not skip. -/
theorem eq_false_of_dropWhile_eq_cons {l : List ι} {p : ι → Bool} {y : ι} {r : List ι}
    (h : l.dropWhile p = y :: r) : p y = false := by
  have hne : l.dropWhile p ≠ [] := by rw [h]; exact List.cons_ne_nil y r
  have := List.head_dropWhile_not p hne
  simpa only [h, List.head_cons] using this

/-- **Uniqueness of the normal form.** Two normal-form lists that cover the same set
    have the same endpoints, interval by interval. Induction on the first list; at
    two heads, both `lo`s are the least covered point and both `hi`s are the first
    uncovered point above it, and the tails cover the same remainder. -/
theorem Sep.map_eq_of_covers_eq :
    ∀ {l m : List ι}, Sep lo hi l → Sep lo hi m → covers lo hi l = covers lo hi m →
      l.map (fun x => (lo x, hi x)) = m.map (fun x => (lo x, hi x))
  | [], m, _, hm, hc => by
    rw [covers_nil, eq_comm, hm.covers_eq_empty] at hc
    simp [hc]
  | x :: l, [], hl, _, hc => by
    rw [covers_nil, hl.covers_eq_empty] at hc
    exact absurd hc (by simp)
  | x :: l, y :: m, hl, hm, hc => by
    have hxl : lo x ∈ covers lo hi (x :: l) := by
      rw [covers_cons]; exact Or.inl ⟨le_refl _, hl.head_lt⟩
    have hym : lo y ∈ covers lo hi (y :: m) := by
      rw [covers_cons]; exact Or.inl ⟨le_refl _, hm.head_lt⟩
    have hlo : lo x = lo y := le_antisymm
      (hl.lo_le_of_mem (hc ▸ hym)) (hm.lo_le_of_mem (hc.symm ▸ hxl))
    -- a point of one head interval past the other head's `hi` would be covered and
    -- not covered at once
    have hhi : hi x = hi y := by
      rcases lt_trichotomy (hi x) (hi y) with hlt | heq | hgt
      · have hin : hi x ∈ covers lo hi (y :: m) := by
          rw [covers_cons]
          exact Or.inl ⟨hlo ▸ le_of_lt hl.head_lt, hlt⟩
        exact absurd (hc ▸ hin) hl.hi_not_mem
      · exact heq
      · have hin : hi y ∈ covers lo hi (x :: l) := by
          rw [covers_cons]
          exact Or.inl ⟨hlo ▸ le_of_lt hm.head_lt, hgt⟩
        exact absurd (hc.symm ▸ hin) hm.hi_not_mem
    have htail : covers lo hi l = covers lo hi m := by
      rw [hl.covers_tail, hm.covers_tail, hc, hlo, hhi]
    simp only [List.map_cons, hlo, hhi, List.cons.injEq, true_and]
    exact Sep.map_eq_of_covers_eq hl.tail hm.tail htail

end IntervalList
