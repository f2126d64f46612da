import Mathlib
import AliSql.Gtid.Memory
import AliSql.Gtid.Sid

/-!
# `Gtid_set`: the set operations

A `Gtid_set` is an array of interval lists, one per SIDNO (`intervals`, a
`DYNAMIC_ARRAY` of list heads, index `sidno - 1`), and it denotes the set of pairs
`(sidno, gno)` those lists cover. This file models the operations of
`rpl_gtid_set.cc` that work on whole sets — `_add_gtid`, `_remove_gtid`,
`add_gtid_set`, `remove_gtid_set`, `intersection`, `clear` — over the per-list
functions of `Gtid/Interval.lean`, and proves of each:

* it keeps every list in normal form (`Gtid_set.NF`), and
* it acts on the denotation as the set operation it is named after.

The two run-level facts every operation here needs are proved once, for the two
iterator loops `add_gno_intervals` and `remove_gno_intervals`: when the other set's
list is in normal form, reusing one iterator for all its intervals is correct
(`add_gno_intervals_spec`, `remove_gno_intervals_spec`).

Only the branch of `add_gtid_set` / `remove_gtid_set` for sets over the same
`Sid_map` is modelled (the other branch is marked "not being used" in the source).
A set also carries the cache of `get_string_length` (`cached_string_length`, reset
to `-1` by every call of `add_gno_interval` and `remove_gno_interval`, and by
`clear`); it is read in `Gtid/ToString.lean`. And it carries its interval memory
(`Gtid/Memory.lean`): `add_gno_interval` and `remove_gno_interval` take intervals from its
free list and give them back, `clear` links every list in at the free list's end.
-/

set_option autoImplicit false

namespace AliSql
namespace Gtid

open IntervalList

/-- `Gtid_set::String_format`: the separators `to_string` writes, each with the
    length field `to_string` and `get_string_length` actually use. -/
structure String_format where
  begin : List Char
  «end» : List Char
  sid_gno_separator : List Char
  gno_start_end_separator : List Char
  gno_gno_separator : List Char
  gno_sid_separator : List Char
  empty_set_string : Option (List Char)
  begin_length : Nat
  end_length : Nat
  sid_gno_separator_length : Nat
  gno_start_end_separator_length : Nat
  gno_gno_separator_length : Nat
  gno_sid_separator_length : Nat
  empty_set_string_length : Nat
deriving DecidableEq

/-- `Gtid_set`: the interval lists (index `sidno - 1`), the string-length cache and the
    chunks and free list of its intervals. The cached format stands for the pointer
    `cached_string_format`; the three static formats differ in content, so comparing them
    by value is comparing the pointers. -/
structure Gtid_set where
  intervals : List (List Interval)
  cached_string_length : Int
  cached_string_format : Option String_format
  interval_memory : Interval_memory

namespace Gtid_set

/-- `Gtid_set::Gtid_set(sid_map)` and `init()`: no SIDNO, nothing cached, no chunk. -/
def empty : Gtid_set := ⟨[], -1, none, Interval_memory.init⟩

/-- `Gtid_set::get_max_sidno`. -/
def get_max_sidno (s : Gtid_set) : Nat := s.intervals.length

/-- The list an `Interval_iterator(this, sidno)` walks. -/
def ivs (s : Gtid_set) (sidno : Nat) : List Interval := s.intervals.getD (sidno - 1) []

/-- Writing a SIDNO's list through an iterator; every writer resets the cache. -/
def set_ivs (s : Gtid_set) (sidno : Nat) (l : List Interval) : Gtid_set :=
  { s with intervals := s.intervals.set (sidno - 1) l, cached_string_length := -1 }

/-- `Gtid_set::ensure_sidno`: grow the array with empty lists up to `sidno`. -/
def ensure_sidno (s : Gtid_set) (sidno : Nat) : Gtid_set :=
  if sidno > s.get_max_sidno then
    { s with intervals := s.intervals ++ List.replicate (sidno - s.get_max_sidno) [] }
  else s

/-- `Gtid_set::contains_sidno`. -/
def contains_sidno (s : Gtid_set) (sidno : Nat) : Bool :=
  sidno ≤ s.get_max_sidno && !(s.ivs sidno).isEmpty

/-- The set with its interval memory replaced. -/
def with_memory (s : Gtid_set) (mem : Interval_memory) : Gtid_set :=
  { s with interval_memory := mem }

/-- `Gtid_set::add_gno_interval` on this set's list for `sidno`, iterator at `k`, with what
    it does to the free list. -/
def add_gno_interval (s : Gtid_set) (sidno k : Nat) (start e : Int) : Gtid_set × Nat :=
  let r := add_gno_interval_at (s.ivs sidno) k start e
  ((s.set_ivs sidno r.1).with_memory
      (add_gno_interval_memory ((s.ivs sidno).drop k) start e s.interval_memory), r.2)

/-- `Gtid_set::remove_gno_interval` on this set's list for `sidno`, iterator at `k`, with
    what it does to the free list. -/
def remove_gno_interval (s : Gtid_set) (sidno k : Nat) (start e : Int) : Gtid_set × Nat :=
  let r := remove_gno_interval_at (s.ivs sidno) k start e
  ((s.set_ivs sidno r.1).with_memory
      (remove_gno_interval_memory ((s.ivs sidno).drop k) start e s.interval_memory), r.2)

/-- `Gtid_set::add_gno_intervals`: one iterator, kept from interval to interval. -/
def add_gno_intervals (s : Gtid_set) (sidno : Nat) : Nat → List Interval → Gtid_set
  | _, [] => s
  | k, iv :: rest =>
    let r := s.add_gno_interval sidno k iv.start iv.end
    r.1.add_gno_intervals sidno r.2 rest

/-- `Gtid_set::remove_gno_intervals`: one iterator, kept from interval to interval. -/
def remove_gno_intervals (s : Gtid_set) (sidno : Nat) : Nat → List Interval → Gtid_set
  | _, [] => s
  | k, iv :: rest =>
    let r := s.remove_gno_interval sidno k iv.start iv.end
    r.1.remove_gno_intervals sidno r.2 rest

/-- `Gtid_set::_add_gtid(sidno, gno)`. -/
def _add_gtid (s : Gtid_set) (sidno : Nat) (gno : Int) : Gtid_set :=
  (s.add_gno_interval sidno 0 gno (gno + 1)).1

/-- `Gtid_set::_remove_gtid(sidno, gno)`. -/
def _remove_gtid (s : Gtid_set) (sidno : Nat) (gno : Int) : Gtid_set :=
  if sidno ≤ s.get_max_sidno then (s.remove_gno_interval sidno 0 gno (gno + 1)).1 else s

/-- `Gtid_set::add_gtid_set(other)`, for two sets over the same `Sid_map`. -/
def add_gtid_set (s other : Gtid_set) : Gtid_set :=
  (List.range' 1 other.get_max_sidno).foldl
    (fun s sidno => s.add_gno_intervals sidno 0 (other.ivs sidno))
    (s.ensure_sidno other.get_max_sidno)

/-- `Gtid_set::remove_gtid_set(other)`, for two sets over the same `Sid_map`. -/
def remove_gtid_set (s other : Gtid_set) : Gtid_set :=
  (List.range' 1 (min other.get_max_sidno s.get_max_sidno)).foldl
    (fun s sidno => s.remove_gno_intervals sidno 0 (other.ivs sidno)) s

/-- `Gtid_set::clear`: every list emptied, the array kept, and the intervals of each list
    linked in at the end of the free list. -/
def clear (s : Gtid_set) : Gtid_set :=
  if s.get_max_sidno = 0 then { s with cached_string_length := -1 }
  else ⟨List.replicate s.get_max_sidno [], -1, s.cached_string_format,
    s.intervals.foldl (fun mem l => mem.link_in l.length) s.interval_memory⟩

/-- `Gtid_set::intersection(other, result)`: `result` gets `this ∩ other`, computed
    as `this - (this - other)` in two temporary sets. -/
def intersection (s other result : Gtid_set) : Gtid_set :=
  let this_minus_other := (empty.add_gtid_set s).remove_gtid_set other
  let inter := (empty.add_gtid_set s).remove_gtid_set this_minus_other
  result.add_gtid_set inter

/-! ## Normal form and denotation -/

/-- Every SIDNO's list is in normal form. -/
def NF (s : Gtid_set) : Prop := ∀ l ∈ s.intervals, Normal l

/-- The GTIDs `(sidno, gno)` the set holds. -/
def denote (s : Gtid_set) : Set (Nat × Int) :=
  {p | 1 ≤ p.1 ∧ p.2 ∈ covers Interval.start Interval.end (s.ivs p.1)}

/-! ## The memory beside the lists -/

section WithMemory

variable {s : Gtid_set} {mem : Interval_memory}

@[simp] theorem intervals_with_memory : (s.with_memory mem).intervals = s.intervals := rfl

@[simp] theorem cached_string_length_with_memory :
    (s.with_memory mem).cached_string_length = s.cached_string_length := rfl

@[simp] theorem cached_string_format_with_memory :
    (s.with_memory mem).cached_string_format = s.cached_string_format := rfl

@[simp] theorem interval_memory_with_memory : (s.with_memory mem).interval_memory = mem := rfl

@[simp] theorem ivs_with_memory : (s.with_memory mem).ivs = s.ivs := rfl

@[simp] theorem get_max_sidno_with_memory : (s.with_memory mem).get_max_sidno = s.get_max_sidno :=
  rfl

@[simp] theorem denote_with_memory : (s.with_memory mem).denote = s.denote := rfl

end WithMemory

theorem nf_empty : empty.NF := by
  simp [NF, empty]

@[simp] theorem denote_empty : empty.denote = ∅ := by
  ext p
  simp [denote, empty, ivs]

theorem NF.ivs {s : Gtid_set} (hs : s.NF) (sidno : Nat) : Normal (s.ivs sidno) := by
  unfold Gtid_set.ivs
  rw [List.getD_eq_getElem?_getD]
  cases h : s.intervals[sidno - 1]? with
  | none => exact normal_nil
  | some l => exact hs l (List.mem_of_getElem? h)

theorem ivs_of_gt {s : Gtid_set} {sidno : Nat} (h : s.get_max_sidno < sidno) :
    s.ivs sidno = [] := by
  unfold Gtid_set.ivs get_max_sidno at *
  rw [List.getD_eq_getElem?_getD, List.getElem?_eq_none (by omega)]
  rfl

theorem mem_denote {s : Gtid_set} {sidno : Nat} {gno : Int} :
    (sidno, gno) ∈ s.denote ↔ 1 ≤ sidno ∧ gno ∈ covers Interval.start Interval.end (s.ivs sidno) :=
  Iff.rfl

/-- The GTIDs of one SIDNO whose GNOs lie in a union. -/
theorem sidno_slice_union (sidno : Nat) (A B : Set Int) :
    {p : Nat × Int | p.1 = sidno ∧ p.2 ∈ A ∪ B} =
      {p | p.1 = sidno ∧ p.2 ∈ A} ∪ {p | p.1 = sidno ∧ p.2 ∈ B} := by
  ext p
  simp only [Set.mem_union, Set.mem_ofPred_eq]
  exact and_or_left

/-- Two sets in normal form that hold the same GTIDs have the same lists. -/
theorem ivs_eq_of_denote_eq {s t : Gtid_set} (hs : s.NF) (ht : t.NF) (h : s.denote = t.denote)
    (sidno : Nat) : s.ivs sidno = t.ivs sidno := by
  -- SIDNO 0 reads the list of SIDNO 1, as `sidno - 1` does
  have key : ∀ j, 1 ≤ j → s.ivs j = t.ivs j := by
    intro j hj
    refine (hs.ivs j).eq_of_covers_eq (ht.ivs j) ?_
    ext g
    have hg := congrArg (fun d => (j, g) ∈ d) h
    simp only [mem_denote, hj, true_and, eq_iff_iff] at hg
    exact hg
  rcases Nat.eq_zero_or_pos sidno with rfl | hpos
  · exact key 1 le_rfl
  · exact key sidno hpos

/-! ## Writing one list -/

section SetIvs

variable {s : Gtid_set} {sidno : Nat} {l : List Interval}

@[simp] theorem get_max_sidno_set_ivs : (s.set_ivs sidno l).get_max_sidno = s.get_max_sidno := by
  simp [set_ivs, get_max_sidno]

theorem ivs_set_ivs (h₁ : 1 ≤ sidno) (h₂ : sidno ≤ s.get_max_sidno) {j : Nat} (hj : 1 ≤ j) :
    (s.set_ivs sidno l).ivs j = if j = sidno then l else s.ivs j := by
  unfold Gtid_set.ivs set_ivs get_max_sidno at *
  simp only [List.getD_eq_getElem?_getD, List.getElem?_set]
  by_cases hjs : j = sidno
  · subst hjs
    simp only [if_true, show j - 1 < s.intervals.length by omega, Option.getD_some]
  · simp only [show ¬sidno - 1 = j - 1 by omega, if_false, hjs]

theorem NF.set_ivs (hs : s.NF) (hl : Normal l) : (s.set_ivs sidno l).NF := by
  intro l' hl'
  rcases List.mem_or_eq_of_mem_set hl' with h | rfl
  · exact hs l' h
  · exact hl

theorem denote_set_ivs (h₁ : 1 ≤ sidno) (h₂ : sidno ≤ s.get_max_sidno) :
    (s.set_ivs sidno l).denote =
      {p | p ∈ s.denote ∧ p.1 ≠ sidno} ∪
        {p | p.1 = sidno ∧ p.2 ∈ covers Interval.start Interval.end l} := by
  ext ⟨j, g⟩
  simp only [denote, Set.mem_ofPred_eq, Set.mem_union]
  constructor
  · rintro ⟨hj, hg⟩
    rw [ivs_set_ivs h₁ h₂ hj] at hg
    by_cases hjs : j = sidno
    · rw [if_pos hjs] at hg
      exact Or.inr ⟨hjs, hg⟩
    · rw [if_neg hjs] at hg
      exact Or.inl ⟨⟨hj, hg⟩, hjs⟩
  · rintro (⟨⟨hj, hg⟩, hjs⟩ | ⟨rfl, hg⟩)
    · exact ⟨hj, by rw [ivs_set_ivs h₁ h₂ hj, if_neg hjs]; exact hg⟩
    · exact ⟨h₁, by rw [ivs_set_ivs h₁ h₂ h₁, if_pos rfl]; exact hg⟩

end SetIvs

/-! ## One interval, through an iterator -/

section OneInterval

variable {s : Gtid_set} {sidno k : Nat} {start e : Int}

theorem add_gno_interval_nf (hs : s.NF)
    (hpre : ∀ y ∈ (s.ivs sidno).take k, y.end < start) (h₁ : 1 ≤ start)
    (h₂ : start < e) (h₃ : e ≤ MAX_GNO) : (s.add_gno_interval sidno k start e).1.NF :=
  hs.set_ivs (add_gno_interval_at_normal (hs.ivs sidno) hpre h₁ h₂ h₃)

theorem add_gno_interval_denote (hs : s.NF) (h₁ : 1 ≤ sidno)
    (h₂ : sidno ≤ s.get_max_sidno) (hse : start < e) :
    (s.add_gno_interval sidno k start e).1.denote =
      s.denote ∪ {p | p.1 = sidno ∧ p.2 ∈ Set.Ico start e} := by
  simp only [add_gno_interval, denote_with_memory, denote_set_ivs h₁ h₂,
    add_gno_interval_at_covers (hs.ivs sidno) hse]
  ext ⟨j, g⟩
  simp only [denote, Set.mem_union, Set.mem_ofPred_eq]
  by_cases hj : j = sidno
  · subst hj
    tauto
  · tauto

theorem remove_gno_interval_nf (hs : s.NF) (hse : start < e) :
    (s.remove_gno_interval sidno k start e).1.NF :=
  hs.set_ivs (remove_gno_interval_at_normal (hs.ivs sidno) hse)

theorem remove_gno_interval_denote (hs : s.NF) (h₁ : 1 ≤ sidno)
    (h₂ : sidno ≤ s.get_max_sidno) (hpre : ∀ y ∈ (s.ivs sidno).take k, y.end ≤ start)
    (hse : start < e) :
    (s.remove_gno_interval sidno k start e).1.denote =
      s.denote \ {p | p.1 = sidno ∧ p.2 ∈ Set.Ico start e} := by
  simp only [remove_gno_interval, denote_with_memory,
    denote_set_ivs h₁ h₂, remove_gno_interval_at_covers (hs.ivs sidno) hpre hse]
  ext ⟨j, g⟩
  simp only [denote, Set.mem_union, Set.mem_ofPred_eq, Set.mem_sdiff]
  by_cases hj : j = sidno
  · subst hj
    tauto
  · tauto

@[simp] theorem get_max_sidno_add_gno_interval :
    (s.add_gno_interval sidno k start e).1.get_max_sidno = s.get_max_sidno :=
  get_max_sidno_set_ivs

@[simp] theorem get_max_sidno_remove_gno_interval :
    (s.remove_gno_interval sidno k start e).1.get_max_sidno = s.get_max_sidno :=
  get_max_sidno_set_ivs

theorem ivs_add_gno_interval (h₁ : 1 ≤ sidno) (h₂ : sidno ≤ s.get_max_sidno) :
    (s.add_gno_interval sidno k start e).1.ivs sidno = (add_gno_interval_at (s.ivs sidno) k start e).1 := by
  rw [add_gno_interval, ivs_with_memory, ivs_set_ivs h₁ h₂ h₁, if_pos rfl]

theorem ivs_remove_gno_interval (h₁ : 1 ≤ sidno) (h₂ : sidno ≤ s.get_max_sidno) :
    (s.remove_gno_interval sidno k start e).1.ivs sidno =
      (remove_gno_interval_at (s.ivs sidno) k start e).1 := by
  rw [remove_gno_interval, ivs_with_memory, ivs_set_ivs h₁ h₂ h₁, if_pos rfl]

end OneInterval

/-! ## The iterator loops -/

@[simp] theorem get_max_sidno_add_gno_intervals :
    ∀ (other : List Interval) {s : Gtid_set} {sidno k : Nat},
      (s.add_gno_intervals sidno k other).get_max_sidno = s.get_max_sidno
  | [], _, _, _ => rfl
  | _ :: rest, _, _, _ => by
    simp only [add_gno_intervals, get_max_sidno_add_gno_intervals rest,
      get_max_sidno_add_gno_interval]

@[simp] theorem get_max_sidno_remove_gno_intervals :
    ∀ (other : List Interval) {s : Gtid_set} {sidno k : Nat},
      (s.remove_gno_intervals sidno k other).get_max_sidno = s.get_max_sidno
  | [], _, _, _ => rfl
  | _ :: rest, _, _, _ => by
    simp only [remove_gno_intervals, get_max_sidno_remove_gno_intervals rest,
      get_max_sidno_remove_gno_interval]

/-- **Iterator reuse in `add_gno_intervals` is correct.** With the other list in
    normal form and everything before the iterator ending before all of it, adding
    the intervals one by one from one iterator adds exactly their GNOs. Induction on
    the other list; the iterator the last call leaves sits on an interval that
    contains the interval just added, so everything before it ends before the next
    one (`add_gno_interval_at_iter`). -/
theorem add_gno_intervals_spec :
    ∀ (other : List Interval) {s : Gtid_set} {sidno k : Nat}, s.NF → Normal other →
      1 ≤ sidno → sidno ≤ s.get_max_sidno → k ≤ (s.ivs sidno).length →
      (∀ y ∈ (s.ivs sidno).take k, ∀ z ∈ other, y.end < z.start) →
      (s.add_gno_intervals sidno k other).NF ∧
        (s.add_gno_intervals sidno k other).denote =
          s.denote ∪ {p | p.1 = sidno ∧ p.2 ∈ covers Interval.start Interval.end other}
  | [], s, _, _, hs, _, _, _, _, _ => ⟨hs, by simp [add_gno_intervals]⟩
  | iv :: rest, s, sidno, k, hs, ho, h₁, h₂, hk, hpre => by
    have hiv := ho.sep.head_lt
    have hb := ho.bounds List.mem_cons_self
    have hpre₀ : ∀ y ∈ (s.ivs sidno).take k, y.end < iv.start :=
      fun y hy => hpre y hy iv List.mem_cons_self
    let r := s.add_gno_interval sidno k iv.start iv.end
    have hivs : r.1.ivs sidno = (add_gno_interval_at (s.ivs sidno) k iv.start iv.end).1 :=
      ivs_add_gno_interval h₁ h₂
    obtain ⟨p, hp, hps, -⟩ := add_gno_interval_at_iter (hs.ivs sidno) hk hiv
    have hk' : r.2 ≤ (r.1.ivs sidno).length := by
      rw [hivs]; exact add_gno_interval_at_iter_le (hs.ivs sidno) hk hiv
    -- everything before the new iterator ends before `p`, which starts by `iv.start`
    have hpre' : ∀ y ∈ (r.1.ivs sidno).take r.2, ∀ z ∈ rest, y.end < z.start := by
      intro y hy z hz
      rw [hivs] at hy
      have hyp : y.end < p.start :=
        (add_gno_interval_at_normal (hs.ivs sidno) hpre₀ hb.1 hiv hb.2).sep.hi_lt_lo_of_mem_take
          hp hy
      have hivz : iv.end < z.start := ho.sep.hi_lt_lo hz
      omega
    obtain ⟨hnf', hden'⟩ := add_gno_intervals_spec rest
      (add_gno_interval_nf hs hpre₀ hb.1 hiv hb.2) ho.tail h₁
      (by rw [get_max_sidno_add_gno_interval]; exact h₂) hk' hpre'
    refine ⟨hnf', ?_⟩
    change (r.1.add_gno_intervals sidno r.2 rest).denote = _
    rw [hden', add_gno_interval_denote hs h₁ h₂ hiv, covers_cons]
    ext ⟨j, g⟩
    simp only [Set.mem_union, Set.mem_ofPred_eq]
    tauto

/-- **Iterator reuse in `remove_gno_intervals` is correct.** The iterator the last
    call leaves has everything before it ending by that call's `start`, so by the next
    interval's start too. -/
theorem remove_gno_intervals_spec :
    ∀ (other : List Interval) {s : Gtid_set} {sidno k : Nat}, s.NF →
      Sep Interval.start Interval.end other →
      1 ≤ sidno → sidno ≤ s.get_max_sidno → k ≤ (s.ivs sidno).length →
      (∀ y ∈ (s.ivs sidno).take k, ∀ z ∈ other, y.end ≤ z.start) →
      (s.remove_gno_intervals sidno k other).NF ∧
        (s.remove_gno_intervals sidno k other).denote =
          s.denote \ {p | p.1 = sidno ∧ p.2 ∈ covers Interval.start Interval.end other}
  | [], s, _, _, hs, _, _, _, _, _ => ⟨hs, by simp [remove_gno_intervals]⟩
  | iv :: rest, s, sidno, k, hs, ho, h₁, h₂, hk, hpre => by
    have hiv := ho.head_lt
    have hpre₀ : ∀ y ∈ (s.ivs sidno).take k, y.end ≤ iv.start :=
      fun y hy => hpre y hy iv List.mem_cons_self
    let r := s.remove_gno_interval sidno k iv.start iv.end
    have hnf : r.1.NF := remove_gno_interval_nf hs hiv
    have hivs : r.1.ivs sidno = (remove_gno_interval_at (s.ivs sidno) k iv.start iv.end).1 :=
      ivs_remove_gno_interval h₁ h₂
    obtain ⟨hk', hpos⟩ := @remove_gno_interval_at_iter (s.ivs sidno) k iv.start iv.end hk hpre₀
    -- everything before the new iterator ends by `iv.start`, before `rest` begins
    have hpre' : ∀ y ∈ (r.1.ivs sidno).take r.2, ∀ z ∈ rest, y.end ≤ z.start := by
      intro y hy z hz
      rw [hivs] at hy
      have hyiv : y.end ≤ iv.start := hpos y hy
      have hivz : iv.end < z.start := ho.hi_lt_lo hz
      omega
    obtain ⟨hnf', hden'⟩ := remove_gno_intervals_spec rest hnf ho.tail h₁
      (by rw [get_max_sidno_remove_gno_interval]; exact h₂) (by rw [hivs]; exact hk') hpre'
    refine ⟨hnf', ?_⟩
    change (r.1.remove_gno_intervals sidno r.2 rest).denote = _
    rw [hden', remove_gno_interval_denote hs h₁ h₂ hpre₀ hiv, covers_cons]
    ext ⟨j, g⟩
    simp only [Set.mem_sdiff, Set.mem_union, Set.mem_ofPred_eq]
    tauto

/-! ## The iterator of the text and binary parsers

`add_gtid_text` and `add_gtid_encoding` keep one `Interval_iterator` per SID and
reuse it from interval to interval, but re-initialise it when it has reached the end
of the list or when the next interval begins before the current one:
`if (current == NULL || start < current->start) ivit.init(this, sidno)`. -/

/-- The iterator position handed to `add_gno_interval` under the reset rule. -/
def iter_pos (l : List Interval) (k : Nat) (start : Int) : Nat :=
  match l[k]? with
  | some cur => if start < cur.start then 0 else k
  | none => 0

/-- The reset rule is enough for the iterator to be valid, wherever it was left:
    everything before it ends before `start`. -/
theorem iter_pos_spec {l : List Interval} (hl : Normal l) (k : Nat) (start : Int) :
    ∀ y ∈ l.take (iter_pos l k start), y.end < start := by
  unfold iter_pos
  split
  · rename_i cur hcur
    split
    · simp
    · exact fun y hy => hl.end_lt_of_take hcur (by omega) hy
  · simp

section IterPos

variable {s : Gtid_set} {sidno k : Nat} {start e : Int}

/-- One interval added by the text or binary parser: normal form kept, and exactly
    `[start, end)` added. -/
theorem add_gno_interval_iter_pos (hs : s.NF) (h₁ : 1 ≤ sidno) (h₂ : sidno ≤ s.get_max_sidno)
    (hb : 1 ≤ start) (hse : start < e) (he : e ≤ MAX_GNO) :
    (s.add_gno_interval sidno (iter_pos (s.ivs sidno) k start) start e).1.NF ∧
      (s.add_gno_interval sidno (iter_pos (s.ivs sidno) k start) start e).1.denote =
        s.denote ∪ {p | p.1 = sidno ∧ p.2 ∈ Set.Ico start e} :=
  ⟨add_gno_interval_nf hs (iter_pos_spec (hs.ivs sidno) k start) hb hse he,
    add_gno_interval_denote hs h₁ h₂ hse⟩

end IterPos

/-! ## Growing the array -/

section Ensure

variable {s : Gtid_set} {n : Nat}

@[simp] theorem get_max_sidno_ensure_sidno :
    (s.ensure_sidno n).get_max_sidno = max s.get_max_sidno n := by
  unfold ensure_sidno
  split
  · rename_i h
    simp only [get_max_sidno, List.length_append, List.length_replicate] at h ⊢
    omega
  · rename_i h
    simp only [get_max_sidno] at h ⊢
    omega

/-- The new lists are empty: no SIDNO's list changes. -/
@[simp] theorem ivs_ensure_sidno (j : Nat) : (s.ensure_sidno n).ivs j = s.ivs j := by
  unfold ensure_sidno Gtid_set.ivs
  split
  · simp only [List.getD_eq_getElem?_getD, List.getElem?_append]
    split
    · rfl
    · rw [List.getElem?_eq_none (l := s.intervals) (by omega)]
      simp only [List.getElem?_replicate]
      split <;> rfl
  · rfl

theorem NF.ensure_sidno (hs : s.NF) : (s.ensure_sidno n).NF := by
  unfold Gtid_set.ensure_sidno
  split
  · intro l hl
    rcases List.mem_append.mp hl with hl | hl
    · exact hs l hl
    · rw [List.eq_of_mem_replicate hl]
      exact normal_nil
  · exact hs

end Ensure

/-- The denotation reads a set only through `ivs`. -/
theorem denote_congr {s t : Gtid_set} (h : ∀ j, 1 ≤ j → s.ivs j = t.ivs j) :
    s.denote = t.denote := by
  ext ⟨j, g⟩
  simp only [denote, Set.mem_ofPred_eq]
  constructor
  · rintro ⟨hj, hg⟩
    exact ⟨hj, h j hj ▸ hg⟩
  · rintro ⟨hj, hg⟩
    exact ⟨hj, (h j hj).symm ▸ hg⟩

@[simp] theorem denote_ensure_sidno {s : Gtid_set} {n : Nat} :
    (s.ensure_sidno n).denote = s.denote :=
  denote_congr fun j _ => ivs_ensure_sidno j

/-! ## Whole sets -/

section Loops

variable {other : Gtid_set}

/-- No GTID of a set has a SIDNO of 0. -/
theorem denote_upto_zero : {p : Nat × Int | p ∈ other.denote ∧ p.1 ≤ 0} = ∅ := by
  ext ⟨j, g⟩
  simp only [Set.mem_ofPred_eq, mem_denote, Set.mem_empty_iff_false, iff_false]
  rintro ⟨⟨hj, -⟩, hj0⟩
  omega

/-- The GTIDs of a set up to SIDNO `n + 1`: those up to `n`, and the ones of SIDNO `n + 1`. -/
theorem denote_upto_succ (n : Nat) :
    {p : Nat × Int | p ∈ other.denote ∧ p.1 ≤ n + 1} =
      {p | p ∈ other.denote ∧ p.1 ≤ n} ∪
        {p | p.1 = n + 1 ∧ p.2 ∈ covers Interval.start Interval.end (other.ivs (n + 1))} := by
  ext ⟨j, g⟩
  simp only [Set.mem_union, Set.mem_ofPred_eq, mem_denote]
  constructor
  · rintro ⟨⟨hj, hg⟩, hjn⟩
    rcases Nat.lt_or_ge j (n + 1) with hlt | hge
    · exact Or.inl ⟨⟨hj, hg⟩, by omega⟩
    · exact Or.inr ⟨by omega, (show j = n + 1 by omega) ▸ hg⟩
  · rintro (⟨h, hjn⟩ | ⟨rfl, hg⟩)
    · exact ⟨h, by omega⟩
    · exact ⟨⟨by omega, hg⟩, le_refl _⟩

/-- A loop over the SIDNOs `1 … n + 1` is the loop over `1 … n` and one more step. -/
theorem foldl_range'_succ {α : Type} (f : α → Nat → α) (s : α) (n : Nat) :
    (List.range' 1 (n + 1)).foldl f s = f ((List.range' 1 n).foldl f s) (n + 1) := by
  rw [List.range'_concat, List.foldl_append, List.foldl_cons, List.foldl_nil, Nat.one_mul,
    Nat.add_comm 1 n]

/-- The loop of `add_gtid_set` over SIDNOs `1 … n`: each list of `other` is added
    with a fresh iterator. -/
theorem add_gtid_set_loop (ho : other.NF) :
    ∀ (n : Nat) {s : Gtid_set}, s.NF → n ≤ s.get_max_sidno →
      let t := (List.range' 1 n).foldl
        (fun s sidno => s.add_gno_intervals sidno 0 (other.ivs sidno)) s
      t.NF ∧ t.get_max_sidno = s.get_max_sidno ∧
        t.denote = s.denote ∪ {p | p ∈ other.denote ∧ p.1 ≤ n}
  | 0, s, hs, _ => by
    refine ⟨hs, rfl, ?_⟩
    show s.denote = s.denote ∪ _
    rw [denote_upto_zero, Set.union_empty]
  | n + 1, s, hs, hn => by
    obtain ⟨hnf, hmax, hden⟩ := add_gtid_set_loop ho n hs (by omega)
    dsimp only
    rw [foldl_range'_succ]
    -- the step adds the list of SIDNO `n + 1`, past the lists already added
    obtain ⟨hnf', hden'⟩ := @add_gno_intervals_spec (other.ivs (n + 1)) _ (n + 1) 0 hnf
      (ho.ivs (n + 1)) (by omega) (by rw [hmax]; omega) (Nat.zero_le _) (by simp)
    refine ⟨hnf', by rw [get_max_sidno_add_gno_intervals, hmax], ?_⟩
    rw [hden', hden, denote_upto_succ, Set.union_assoc]

/-- The loop of `remove_gtid_set` over SIDNOs `1 … n`. -/
theorem remove_gtid_set_loop (ho : other.NF) :
    ∀ (n : Nat) {s : Gtid_set}, s.NF → n ≤ s.get_max_sidno →
      let t := (List.range' 1 n).foldl
        (fun s sidno => s.remove_gno_intervals sidno 0 (other.ivs sidno)) s
      t.NF ∧ t.get_max_sidno = s.get_max_sidno ∧
        t.denote = s.denote \ {p | p ∈ other.denote ∧ p.1 ≤ n}
  | 0, s, hs, _ => by
    refine ⟨hs, rfl, ?_⟩
    show s.denote = s.denote \ _
    rw [denote_upto_zero, Set.sdiff_empty]
  | n + 1, s, hs, hn => by
    obtain ⟨hnf, hmax, hden⟩ := remove_gtid_set_loop ho n hs (by omega)
    dsimp only
    rw [foldl_range'_succ]
    obtain ⟨hnf', hden'⟩ := @remove_gno_intervals_spec (other.ivs (n + 1)) _ (n + 1) 0 hnf
      (ho.ivs (n + 1)).sep (by omega) (by rw [hmax]; omega) (Nat.zero_le _) (by simp)
    refine ⟨hnf', by rw [get_max_sidno_remove_gno_intervals, hmax], ?_⟩
    rw [hden', hden, denote_upto_succ, Set.sdiff_sdiff]

end Loops

/-- A set holds no GTID past its last SIDNO. -/
theorem le_get_max_sidno_of_mem {s : Gtid_set} {p : Nat × Int} (hp : p ∈ s.denote) :
    p.1 ≤ s.get_max_sidno := by
  by_contra hlt
  obtain ⟨-, hg⟩ := hp
  rw [ivs_of_gt (by omega), covers_nil] at hg
  exact hg

section SetOps

variable {s other : Gtid_set}

/-- **`add_gtid_set` is union.** -/
theorem add_gtid_set_spec (hs : s.NF) (ho : other.NF) :
    (s.add_gtid_set other).NF ∧
      (s.add_gtid_set other).get_max_sidno = max s.get_max_sidno other.get_max_sidno ∧
      (s.add_gtid_set other).denote = s.denote ∪ other.denote := by
  obtain ⟨hnf, hmax, hden⟩ := add_gtid_set_loop ho other.get_max_sidno (hs.ensure_sidno (n := other.get_max_sidno))
    (by rw [get_max_sidno_ensure_sidno]; omega)
  refine ⟨hnf, by rw [add_gtid_set, hmax, get_max_sidno_ensure_sidno], ?_⟩
  rw [add_gtid_set, hden, denote_ensure_sidno]
  congr 1
  ext p
  exact ⟨fun h => h.1, fun h => ⟨h, le_get_max_sidno_of_mem h⟩⟩

/-- **`remove_gtid_set` is difference.** -/
theorem remove_gtid_set_spec (hs : s.NF) (ho : other.NF) :
    (s.remove_gtid_set other).NF ∧
      (s.remove_gtid_set other).get_max_sidno = s.get_max_sidno ∧
      (s.remove_gtid_set other).denote = s.denote \ other.denote := by
  obtain ⟨hnf, hmax, hden⟩ :=
    remove_gtid_set_loop ho (min other.get_max_sidno s.get_max_sidno) hs (min_le_right _ _)
  refine ⟨hnf, hmax, ?_⟩
  rw [remove_gtid_set, hden]
  ext p
  simp only [Set.mem_sdiff, Set.mem_ofPred_eq]
  constructor
  · rintro ⟨h, hn⟩
    exact ⟨h, fun ho' => hn ⟨ho', le_min (le_get_max_sidno_of_mem ho')
      (le_get_max_sidno_of_mem h)⟩⟩
  · rintro ⟨h, hn⟩
    exact ⟨h, fun ⟨ho', _⟩ => hn ho'⟩

/-- **`clear` empties the set** and keeps the array. -/
theorem clear_spec (s : Gtid_set) :
    s.clear.NF ∧ s.clear.get_max_sidno = s.get_max_sidno ∧ s.clear.denote = ∅ := by
  unfold clear
  split
  · rename_i h
    have hnil : s.intervals = [] := List.eq_nil_of_length_eq_zero h
    refine ⟨by simp [NF, hnil], rfl, ?_⟩
    ext ⟨j, g⟩
    simp [denote, ivs, hnil]
  · refine ⟨fun l hl => (List.eq_of_mem_replicate hl) ▸ normal_nil, by simp [get_max_sidno], ?_⟩
    ext ⟨j, g⟩
    simp [denote, ivs, List.getD_eq_getElem?_getD, List.getElem?_replicate]
    split <;> simp

/-- **`intersection` adds `this ∩ other` to `result`.** -/
theorem intersection_spec {result : Gtid_set} (hs : s.NF) (ho : other.NF) (hr : result.NF) :
    (s.intersection other result).NF ∧
      (s.intersection other result).get_max_sidno =
        max result.get_max_sidno s.get_max_sidno ∧
      (s.intersection other result).denote = result.denote ∪ (s.denote ∩ other.denote) := by
  obtain ⟨hA, hAmax, hAden⟩ := add_gtid_set_spec nf_empty hs
  obtain ⟨hB, -, hBden⟩ := remove_gtid_set_spec hA ho
  obtain ⟨hC, hCmax, hCden⟩ := remove_gtid_set_spec hA hB
  obtain ⟨hR, hRmax, hRden⟩ := add_gtid_set_spec hr hC
  simp only [intersection]
  refine ⟨hR, by rw [hRmax, hCmax, hAmax]; simp [get_max_sidno, empty], ?_⟩
  rw [hRden, hCden, hBden, hAden, denote_empty, Set.empty_union, Set.sdiff_sdiff_right_self]

end SetOps

section OneGtid

variable {s : Gtid_set} {sidno : Nat} {gno : Int}

/-- **`_add_gtid` adds one GTID**, for a SIDNO the array already has. -/
theorem _add_gtid_spec (hs : s.NF) (h₁ : 1 ≤ sidno) (h₂ : sidno ≤ s.get_max_sidno)
    (hg : 1 ≤ gno) (hg' : gno < MAX_GNO) :
    (s._add_gtid sidno gno).NF ∧ (s._add_gtid sidno gno).get_max_sidno = s.get_max_sidno ∧
      (s._add_gtid sidno gno).denote = insert (sidno, gno) s.denote := by
  refine ⟨add_gno_interval_nf hs (by simp) hg (by omega) (by omega),
    get_max_sidno_add_gno_interval, ?_⟩
  rw [_add_gtid, add_gno_interval_denote hs h₁ h₂ (by omega), Set.union_comm,
    Set.insert_eq]
  congr 1
  ext ⟨j, g⟩
  simp only [Set.mem_ofPred_eq, Set.mem_Ico, Set.mem_singleton_iff, Prod.mk.injEq]
  omega

/-- **`_remove_gtid` removes one GTID**; a SIDNO past the array holds none. -/
theorem _remove_gtid_spec (hs : s.NF) (h₁ : 1 ≤ sidno) :
    (s._remove_gtid sidno gno).NF ∧
      (s._remove_gtid sidno gno).get_max_sidno = s.get_max_sidno ∧
      (s._remove_gtid sidno gno).denote = s.denote \ {(sidno, gno)} := by
  unfold _remove_gtid
  split
  · rename_i h₂
    refine ⟨remove_gno_interval_nf hs (by omega), get_max_sidno_remove_gno_interval, ?_⟩
    rw [remove_gno_interval_denote hs h₁ h₂ (by simp) (by omega)]
    congr 1
    ext ⟨j, g⟩
    simp only [Set.mem_ofPred_eq, Set.mem_Ico, Set.mem_singleton_iff, Prod.mk.injEq]
    omega
  · rename_i h₂
    refine ⟨hs, rfl, ?_⟩
    rw [eq_comm, Set.sdiff_singleton_eq_self]
    intro hp
    exact h₂ (le_get_max_sidno_of_mem hp)

end OneGtid

/-! ## Relations that every operation keeps

The operations write the interval lists only through `add_gno_interval` and
`remove_gno_interval`, and grow the array only through `ensure_sidno`. A reflexive and
transitive relation between a set and a later one that each of these three writes keeps is
kept by every operation built from them. The loops of the operations are followed here
once; each relation of the development (`Sound_step` below, `Cache_step` in `ToString`)
proves only the three writes. -/

/-- A relation between a set and a later one that each of the three writes keeps. -/
structure Write_relation (R : Gtid_set → Gtid_set → Prop) : Prop where
  refl : ∀ s, R s s
  trans : ∀ {s t u}, R s t → R t u → R s u
  add_gno_interval : ∀ s sidno k start e, R s (s.add_gno_interval sidno k start e).1
  remove_gno_interval : ∀ s sidno k start e, R s (s.remove_gno_interval sidno k start e).1
  ensure_sidno : ∀ s n, R s (s.ensure_sidno n)

namespace Write_relation

variable {R : Gtid_set → Gtid_set → Prop} (hR : Write_relation R)
include hR

/-- A fold whose every round keeps the relation keeps it. -/
theorem foldl {α : Type} {f : Gtid_set → α → Gtid_set} (hf : ∀ s x, R s (f s x)) :
    ∀ (L : List α) (s : Gtid_set), R s (L.foldl f s)
  | [], s => hR.refl s
  | x :: L, s => hR.trans (hf s x) (foldl hf L (f s x))

theorem add_gno_intervals (sidno : Nat) :
    ∀ (l : List Interval) (s : Gtid_set) (k : Nat), R s (s.add_gno_intervals sidno k l)
  | [], s, _ => hR.refl s
  | iv :: rest, s, k =>
    hR.trans (hR.add_gno_interval s sidno k iv.start iv.end) (add_gno_intervals sidno rest _ _)

theorem remove_gno_intervals (sidno : Nat) :
    ∀ (l : List Interval) (s : Gtid_set) (k : Nat), R s (s.remove_gno_intervals sidno k l)
  | [], s, _ => hR.refl s
  | iv :: rest, s, k =>
    hR.trans (hR.remove_gno_interval s sidno k iv.start iv.end)
      (remove_gno_intervals sidno rest _ _)

theorem add_gtid_set (s other : Gtid_set) : R s (s.add_gtid_set other) :=
  hR.trans (hR.ensure_sidno s _) (hR.foldl (fun s j => hR.add_gno_intervals j _ s 0) _ _)

theorem remove_gtid_set (s other : Gtid_set) : R s (s.remove_gtid_set other) :=
  hR.foldl (fun s j => hR.remove_gno_intervals j _ s 0) _ _

theorem _add_gtid (s : Gtid_set) (sidno : Nat) (gno : Int) : R s (s._add_gtid sidno gno) :=
  hR.add_gno_interval s sidno 0 gno (gno + 1)

theorem _remove_gtid (s : Gtid_set) (sidno : Nat) (gno : Int) :
    R s (s._remove_gtid sidno gno) := by
  unfold Gtid_set._remove_gtid
  split
  · exact hR.remove_gno_interval s sidno 0 gno (gno + 1)
  · exact hR.refl s

/-- `intersection` writes `result` only through `add_gtid_set`. -/
theorem intersection (s other result : Gtid_set) : R result (s.intersection other result) :=
  hR.add_gtid_set result _

end Write_relation

/-! ## The interval memory over the set operations

Every operation takes intervals from the set's free list only through `get_free_interval`
and gives them back through `put_free_interval` or `clear`'s links, so each one keeps the
memory sound (`Interval_memory.Sound`): the three writes do, and so every operation built
from them (`Sound_step.write_relation`); `clear` is proved on its own. -/

/-- What an operation does to the interval memory: from a sound memory it leaves one. -/
def Sound_step (s t : Gtid_set) : Prop := s.interval_memory.Sound → t.interval_memory.Sound

namespace Sound_step

theorem refl (s : Gtid_set) : Sound_step s s := id

theorem trans {s t u : Gtid_set} (h₁ : Sound_step s t) (h₂ : Sound_step t u) :
    Sound_step s u := h₂ ∘ h₁

end Sound_step

theorem sound_step_add_gno_interval (s : Gtid_set) (sidno k : Nat) (start e : Int) :
    Sound_step s (s.add_gno_interval sidno k start e).1 :=
  Interval_memory.Sound.add_gno_interval_memory

theorem sound_step_remove_gno_interval (s : Gtid_set) (sidno k : Nat) (start e : Int) :
    Sound_step s (s.remove_gno_interval sidno k start e).1 :=
  Interval_memory.Sound.remove_gno_interval_memory

theorem sound_step_ensure_sidno (s : Gtid_set) (n : Nat) : Sound_step s (s.ensure_sidno n) := by
  unfold ensure_sidno
  split
  · exact id
  · exact Sound_step.refl s

theorem Sound_step.write_relation : Write_relation Sound_step :=
  ⟨Sound_step.refl, Sound_step.trans, sound_step_add_gno_interval,
    sound_step_remove_gno_interval, sound_step_ensure_sidno⟩

/-- `clear` walks a free list of cells inside chunks only. Induction on the lists linked in. -/
theorem sound_foldl_link_in :
    ∀ (ls : List (List Interval)) {mem : Interval_memory}, mem.Sound →
      (ls.foldl (fun mem l => mem.link_in l.length) mem).Sound
  | [], _, h => h
  | l :: ls, _, h => sound_foldl_link_in ls (h.link_in l.length)

theorem sound_step_clear (s : Gtid_set) : Sound_step s s.clear := by
  unfold clear
  split
  · exact id
  · exact sound_foldl_link_in s.intervals

end Gtid_set

end Gtid
end AliSql
