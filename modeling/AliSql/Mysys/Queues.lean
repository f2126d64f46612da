import Mathlib
import AliSql.Lib.Heap

/-!
# Priority queues (`mysys/queues.c`)

A `QUEUE` keeps pointers in a binary heap at `root[1..elements]`, ordered by `compare`
times `max_at_top` (1, or -1 for the greatest on top). `queue_insert` sifts a new element
up from a new leaf, with the element itself at `root[0]` to stop the loop; `_downheap`
moves the hole at `idx` down along the children that order first, comparing the element
only on the first round, and then back up to where the element belongs, not above `idx`;
`queue_remove` moves the last element into the removed position and calls `_downheap`
there, and `queue_fix` calls it for every inner position from the last one up.

The pointers are values of a type `α`, and the compare function with its `first_cmp_arg`
and `offset_to_key` one function `α → α → Int`; the array is a function on positions.

On a compare function that is a total preorder (`Total_preorder`), `heap_le` is a total
preorder for either sign, and the sifts meet the invariants of `Heap`:
`queue_insert_ordered`, `_downheap_ordered`, `queue_fix_ordered`. Every queue that
`init_queue`, `queue_insert`, `queue_remove` of the top and `queue_replaced` reach is
ordered and holds what was put in and not taken out (`Reachable.ordered`). `queue_remove`
at another position only sifts the last element down from there, and the order can break
above it (`queue_remove_inner_breaks_order`).
-/

set_option autoImplicit false

namespace AliSql

open Heap

variable {α : Type}

/-! ## The compare function -/

/-- A compare function whose sign is a total preorder: antisymmetric in sign, with
    `compare a b ≤ 0` transitive. -/
class Total_preorder (compare : α → α → Int) : Prop where
  neg_iff : ∀ a b, compare a b < 0 ↔ 0 < compare b a
  trans : ∀ a b c, compare a b ≤ 0 → compare b c ≤ 0 → compare a c ≤ 0

/-- The order of a queue: `a` may stand above `b`. -/
def heap_le (compare : α → α → Int) (max_at_top : Int) (a b : α) : Prop :=
  max_at_top * compare a b ≤ 0

instance (compare : α → α → Int) (max_at_top : Int) : DecidableRel (heap_le compare max_at_top) :=
  fun a b => inferInstanceAs (Decidable (max_at_top * compare a b ≤ 0))

/-- The comparison that picks the second child in `_downheap`. -/
theorem compare_mul_pos_iff (compare : α → α → Int) (o : Int) (a b : α) :
    compare a b * o > 0 ↔ ¬ heap_le compare o a b := by
  rw [heap_le, not_le, Int.mul_comm]

section compare

variable {compare : α → α → Int} [Total_preorder compare] {o : Int}

theorem compare_self (a : α) : compare a a = 0 := by
  have : compare a a < 0 ↔ 0 < compare a a := Total_preorder.neg_iff a a
  omega

theorem heap_le_iff {a b : α} :
    heap_le compare o a b ↔ (0 < o → compare a b ≤ 0) ∧ (o < 0 → compare b a ≤ 0) := by
  have : compare a b < 0 ↔ 0 < compare b a := Total_preorder.neg_iff a b
  rw [heap_le, ← not_lt, Int.mul_pos_iff]
  omega

instance : IsTrans α (heap_le compare o) where
  trans a b c hab hbc := by
    rw [heap_le_iff] at *
    exact ⟨fun ho => Total_preorder.trans a b c (hab.1 ho) (hbc.1 ho),
      fun ho => Total_preorder.trans c b a (hbc.2 ho) (hab.2 ho)⟩

instance : Std.Total (heap_le compare o) where
  total a b := by
    have : compare a b < 0 ↔ 0 < compare b a := Total_preorder.neg_iff a b
    rw [heap_le_iff, heap_le_iff]
    omega

/-- The comparison of `queue_insert` and of the rise in `_downheap`: `a` orders strictly
    before `b`. -/
theorem compare_mul_neg_iff (a b : α) : compare a b * o < 0 ↔ ¬ heap_le compare o b a := by
  have : compare a b < 0 ↔ 0 < compare b a := Total_preorder.neg_iff a b
  have : compare b a < 0 ↔ 0 < compare a b := Total_preorder.neg_iff b a
  rw [heap_le, not_le, Int.mul_neg_iff, Int.mul_pos_iff]
  omega

/-- The comparison that keeps the element where the descent starts. -/
theorem compare_mul_nonneg_iff (a b : α) : compare a b * o ≥ 0 ↔ heap_le compare o b a := by
  rw [ge_iff_le, ← not_lt, compare_mul_neg_iff, not_not]

end compare

/-! ## The queue -/

/-- `st_queue`. The pointers are at `root[1..elements]`; `root[0]` is where
    `queue_insert` puts the element it inserts. -/
structure QUEUE (α : Type) where
  root : Nat → α
  elements : Nat
  max_elements : Nat
  max_at_top : Int
  compare : α → α → Int

def queue_set_max_at_top (queue : QUEUE α) (set_arg : Bool) : QUEUE α :=
  { queue with max_at_top := if set_arg then -1 else 1 }

/-- `init_queue`, with the array `my_malloc` returned. -/
def init_queue (max_elements : Nat) (max_at_top : Bool) (compare : α → α → Int)
    (root : Nat → α) : QUEUE α :=
  queue_set_max_at_top { root, elements := 0, max_elements, max_at_top := 0, compare }
    max_at_top

@[simp] theorem init_queue_elements (max_elements : Nat) (max_at_top : Bool)
    (compare : α → α → Int) (root : Nat → α) :
    (init_queue max_elements max_at_top compare root).elements = 0 := rfl

def queue_top (queue : QUEUE α) : α := queue.root 1

/-- `queue_is_full` (`queues.h`). -/
def queue_is_full (queue : QUEUE α) : Bool := queue.elements == queue.max_elements

/-- `queue_element(queue, index)` (`queues.h`). -/
def queue_element (queue : QUEUE α) (index : Nat) : α := queue.root (index + 1)

/-- The loop of `queue_insert`, with `fuel` rounds at most: while `element` orders strictly
    before the value at the parent of `idx`, that value moves down into `idx`. -/
def queue_insert.loop (compare : α → α → Int) (max_at_top : Int) (element : α) :
    Nat → (Nat → α) → Nat → (Nat → α) × Nat
  | 0, root, idx => (root, idx)
  | fuel + 1, root, idx =>
    let next := idx / 2
    if compare element (root next) * max_at_top < 0 then
      queue_insert.loop compare max_at_top element fuel (Function.update root idx (root next)) next
    else (root, idx)

def queue_insert (queue : QUEUE α) (element : α) : QUEUE α :=
  let root := Function.update queue.root 0 element
  let idx := queue.elements + 1
  let r := queue_insert.loop queue.compare queue.max_at_top element idx root idx
  { queue with root := Function.update r.1 r.2 element, elements := idx }

/-- `queue_insert_safe` on a queue made with `auto_extent` (`init_queue_ex`): a full queue
    first grows by `auto_extent` slots (`resize_queue`, whose reallocation succeeds here), or
    is left as it is with the return 2 when `auto_extent` is 0. -/
def queue_insert_safe (queue : QUEUE α) (auto_extent : Nat) (element : α) : QUEUE α × Nat :=
  if queue.elements = queue.max_elements then
    if auto_extent = 0 then (queue, 2)
    else (queue_insert { queue with max_elements := queue.max_elements + auto_extent } element, 0)
  else (queue_insert queue element, 0)

/-- The child of `idx` that `_downheap` follows: the second when there is one and the
    first orders strictly after it. -/
def _downheap.next_index (compare : α → α → Int) (max_at_top : Int) (root : Nat → α)
    (elements idx : Nat) : Nat :=
  if idx + idx < elements ∧
      compare (root (idx + idx)) (root (idx + idx + 1)) * max_at_top > 0 then
    idx + idx + 1
  else idx + idx

/-- The first loop of `_downheap`. On the first round only, `element` stays at `idx` when
    it orders at or before the child; otherwise the child's value moves up into `idx`. It
    ends with the array of the early return (`inl`), or with the array and the hole where
    the loop stopped (`inr`). -/
def _downheap.down (compare : α → α → Int) (max_at_top : Int) (element : α) (elements : Nat) :
    Nat → (Nat → α) → Nat → Bool → (Nat → α) ⊕ ((Nat → α) × Nat)
  | 0, root, idx, _ => .inr (root, idx)
  | fuel + 1, root, idx, first =>
    if idx ≤ elements / 2 then
      let next_index := _downheap.next_index compare max_at_top root elements idx
      if first ∧ compare (root next_index) element * max_at_top ≥ 0 then
        .inl (Function.update root idx element)
      else
        _downheap.down compare max_at_top element elements fuel
          (Function.update root idx (root next_index)) next_index false
    else .inr (root, idx)

/-- The second loop of `_downheap`: while the parent of the hole is below `start_idx` and
    `element` does not order strictly after its value, that value moves down. -/
def _downheap.up (compare : α → α → Int) (max_at_top : Int) (element : α) (start_idx : Nat) :
    Nat → (Nat → α) → Nat → (Nat → α)
  | 0, root, idx => Function.update root idx element
  | fuel + 1, root, idx =>
    let next_index := idx / 2
    if next_index > start_idx then
      if compare (root next_index) element * max_at_top < 0 then
        Function.update root idx element
      else
        _downheap.up compare max_at_top element start_idx fuel
          (Function.update root idx (root next_index)) next_index
    else Function.update root idx element

def _downheap (queue : QUEUE α) (idx : Nat) : QUEUE α :=
  let element := queue.root idx
  { queue with
    root :=
      match _downheap.down queue.compare queue.max_at_top element queue.elements
          (queue.elements + 1) queue.root idx true with
      | .inl root => root
      | .inr (root, idx') =>
        _downheap.up queue.compare queue.max_at_top element idx (idx' + 1) root idx' }

/-- `queue_remove`: the element at position `idx + 1` is returned, the last element moves
    there, and `_downheap` sifts it. -/
def queue_remove (queue : QUEUE α) (idx : Nat) : QUEUE α × α :=
  let idx := idx + 1
  let element := queue.root idx
  let queue := { queue with
    root := Function.update queue.root idx (queue.root queue.elements)
    elements := queue.elements - 1 }
  (_downheap queue idx, element)

def queue_replaced (queue : QUEUE α) : QUEUE α := _downheap queue 1

/-- The loop of `queue_fix`: `_downheap` at `i`, then at every position below it. -/
def queue_fix.loop : Nat → QUEUE α → QUEUE α
  | 0, queue => queue
  | i + 1, queue => queue_fix.loop i (_downheap queue (i + 1))

def queue_fix (queue : QUEUE α) : QUEUE α := queue_fix.loop (queue.elements / 2) queue

@[simp] theorem _downheap_elements (queue : QUEUE α) (idx : Nat) :
    (_downheap queue idx).elements = queue.elements := rfl

/-- The queue's order holds on `root[1..elements]`. -/
def Heap_ordered (queue : QUEUE α) : Prop :=
  Ordered (heap_le queue.compare queue.max_at_top) queue.root queue.elements 1

instance (queue : QUEUE α) : Decidable (Heap_ordered queue) :=
  inferInstanceAs (Decidable (Ordered _ _ _ _))

/-- The pointers the queue holds. -/
def QUEUE.items (queue : QUEUE α) : List α := Heap.items queue.root queue.elements

/-! ## The sifts -/

section sift

variable {compare : α → α → Int} [Total_preorder compare] {o : Int} {element : α}

/-- The loop of `queue_insert`, from a hole at `idx` in a heap of `n` with `element` at
    position 0, places `element` where the heap is ordered, and holds what the heap held with
    `element` in the hole. -/
theorem queue_insert.loop_spec {n : Nat} :
    ∀ (fuel : Nat) (root : Nat → α) (idx : Nat), root 0 = element → 1 ≤ idx → idx ≤ fuel →
      idx ≤ n → Up_order (heap_le compare o) root n idx element →
      Ordered (heap_le compare o) (Function.update (queue_insert.loop compare o element fuel root
          idx).1 (queue_insert.loop compare o element fuel root idx).2 element) n 1 ∧
        (items (Function.update (queue_insert.loop compare o element fuel root idx).1
          (queue_insert.loop compare o element fuel root idx).2 element) n).Perm
          (items (Function.update root idx element) n) := by
  intro fuel
  induction fuel with
  | zero => intro root idx _ h1 hf; omega
  | succ fuel ih =>
    intro root idx h0 h1 hf hn hup
    rw [queue_insert.loop]
    by_cases hlt : compare element (root (idx / 2)) * o < 0
    · -- `element` orders strictly before the parent, so the parent is not position 0
      have h2 : 2 ≤ idx := by
        by_contra h
        have hself : compare element element = 0 := compare_self element
        rw [show idx / 2 = 0 by omega, h0, hself, Int.zero_mul] at hlt
        exact lt_irrefl 0 hlt
      rw [if_pos hlt]
      obtain ⟨hord, hperm⟩ := ih (Function.update root idx (root (idx / 2))) (idx / 2)
        (by rw [Function.update_of_ne (show 0 ≠ idx by omega)]; exact h0) (by omega) (by omega)
        (by omega) (hup.move h2 hn ((compare_mul_neg_iff _ _).mp hlt))
      exact ⟨hord, hperm.trans (items_move_perm root element ⟨h1, hn⟩ ⟨by omega, by omega⟩)⟩
    · rw [if_neg hlt]
      exact ⟨hup.finish fun _ => (compare_mul_nonneg_iff _ _).mp (not_lt.mp hlt),
        List.Perm.refl _⟩

/-- The child `_downheap` follows orders at or before its sibling. -/
theorem next_index_first {root : Nat → α} {n idx : Nat} (hidx : idx ≤ n / 2) :
    First_child (heap_le compare o) root n idx (_downheap.next_index compare o root n idx) := by
  unfold _downheap.next_index
  split_ifs with hc
  · -- the second child, which orders strictly before the first
    refine ⟨by omega, by omega, fun c' hc' hcn => ?_⟩
    rcases (show c' = idx + idx ∨ c' = idx + idx + 1 by omega) with rfl | rfl
    · exact le_of_not_le ((compare_mul_pos_iff _ _ _ _).mp hc.2)
    · exact refl_of _ _
  · refine ⟨by omega, by omega, fun c' hc' hcn => ?_⟩
    rcases (show c' = idx + idx ∨ c' = idx + idx + 1 by omega) with rfl | rfl
    · exact refl_of _ _
    · -- the second child exists, so the first orders at or before it
      have hnp : ¬ compare (root (idx + idx)) (root (idx + idx + 1)) * o > 0 :=
        fun h => hc ⟨by omega, h⟩
      exact not_not.mp (mt (compare_mul_pos_iff _ _ _ _).mpr hnp)

/-- The descent of `_downheap` after its first round ends at a hole with no children, where
    the rise starts. -/
theorem _downheap.down_spec {n s : Nat} :
    ∀ (fuel : Nat) (root : Nat → α) (hole : Nat), n / 2 < hole + fuel → hole ≤ n →
      Down_order (heap_le compare o) root n s hole element →
      ∃ root' hole', _downheap.down compare o element n fuel root hole false = .inr (root', hole') ∧
        hole' ≤ n ∧ Rise_order (heap_le compare o) root' n s hole' element ∧
        (items (Function.update root' hole' element) n).Perm
          (items (Function.update root hole element) n) := by
  intro fuel
  induction fuel with
  | zero =>
    intro root hole hf hn hdown
    exact ⟨root, hole, rfl, hn, hdown.rise (by omega), List.Perm.refl _⟩
  | succ fuel ih =>
    intro root hole hf hn hdown
    rw [_downheap.down]
    dsimp only
    by_cases hh : hole ≤ n / 2
    · -- the child that orders first moves up into the hole
      have hc : First_child (heap_le compare o) root n hole
          (_downheap.next_index compare o root n hole) := next_index_first hh
      have hpc := hc.parent
      have hsh := hdown.lt
      rw [if_pos hh, if_neg (by simp)]
      obtain ⟨root', hole', heq, hn', hrise, hperm⟩ := ih _ _ (by omega) hc.le_n (hdown.move hc)
      exact ⟨root', hole', heq, hn', hrise,
        hperm.trans (items_move_perm root element ⟨by omega, hn⟩ ⟨by omega, hc.le_n⟩)⟩
    · rw [if_neg hh]
      exact ⟨root, hole, rfl, hn, hdown.rise (by omega), List.Perm.refl _⟩

/-- The rise of `_downheap` places `element` where the heap from `s` on is ordered. -/
theorem _downheap.up_spec {n s : Nat} (hs : 1 ≤ s) :
    ∀ (fuel : Nat) (root : Nat → α) (hole : Nat), hole < fuel → hole ≤ n →
      Rise_order (heap_le compare o) root n s hole element →
      Ordered (heap_le compare o) (_downheap.up compare o element s fuel root hole) n s ∧
        (items (_downheap.up compare o element s fuel root hole) n).Perm
          (items (Function.update root hole element) n) := by
  intro fuel
  induction fuel with
  | zero => intro root hole hf; omega
  | succ fuel ih =>
    intro root hole hf hn hrise
    rw [_downheap.up]
    by_cases hp : hole / 2 > s
    · rw [if_pos hp]
      by_cases hlt : compare (root (hole / 2)) element * o < 0
      · -- the parent orders strictly before `element`, which stays in the hole
        rw [if_pos hlt]
        exact ⟨hrise.finish hs fun _ => le_of_not_le ((compare_mul_neg_iff _ _).mp hlt),
          List.Perm.refl _⟩
      · rw [if_neg hlt]
        obtain ⟨hord, hperm⟩ := ih _ _ (by omega) (by omega)
          (hrise.move hp hn ((compare_mul_nonneg_iff _ _).mp (not_lt.mp hlt)))
        exact ⟨hord, hperm.trans (items_move_perm root element ⟨by omega, hn⟩ ⟨by omega, by omega⟩)⟩
    · rw [if_neg hp]
      exact ⟨hrise.finish hs fun h => absurd h hp, List.Perm.refl _⟩

end sift

/-! ## The operations -/

theorem _downheap_root_of_inl {queue : QUEUE α} {idx : Nat} {root : Nat → α}
    (h : _downheap.down queue.compare queue.max_at_top (queue.root idx) queue.elements
      (queue.elements + 1) queue.root idx true = .inl root) :
    (_downheap queue idx).root = root := by
  simp only [_downheap, h]

theorem _downheap_root_of_inr {queue : QUEUE α} {idx idx' : Nat} {root : Nat → α}
    (h : _downheap.down queue.compare queue.max_at_top (queue.root idx) queue.elements
      (queue.elements + 1) queue.root idx true = .inr (root, idx')) :
    (_downheap queue idx).root =
      _downheap.up queue.compare queue.max_at_top (queue.root idx) idx (idx' + 1) root idx' := by
  simp only [_downheap, h]

/-- Beyond the heap, `_downheap` changes nothing. -/
theorem _downheap_of_lt (queue : QUEUE α) {idx : Nat} (hidx : queue.elements < idx) :
    (_downheap queue idx).root = queue.root := by
  have hdown : _downheap.down queue.compare queue.max_at_top (queue.root idx) queue.elements
      (queue.elements + 1) queue.root idx true = .inr (queue.root, idx) := by
    rw [_downheap.down, if_neg (by omega)]
  rw [_downheap_root_of_inr hdown, _downheap.up, if_neg (by omega), Function.update_eq_self]

/-- `_downheap` at a position `idx` of the heap, whose pairs from `idx` on that do not touch
    `idx` are in order, orders every pair from `idx` on and keeps the pointers. -/
theorem _downheap_ordered (queue : QUEUE α) [Total_preorder queue.compare] {idx : Nat}
    (h1 : 1 ≤ idx) (hn : idx ≤ queue.elements)
    (h : Ordered_except (heap_le queue.compare queue.max_at_top) queue.root queue.elements idx
      idx) :
    Ordered (heap_le queue.compare queue.max_at_top) (_downheap queue idx).root queue.elements
        idx ∧ (_downheap queue idx).items.Perm queue.items := by
  rw [QUEUE.items, QUEUE.items, _downheap_elements]
  by_cases hleaf : idx ≤ queue.elements / 2
  · -- `idx` has children: the first round compares `element` with the one that orders first
    have hc : First_child (heap_le queue.compare queue.max_at_top) queue.root queue.elements idx
        (_downheap.next_index queue.compare queue.max_at_top queue.root queue.elements idx) :=
      next_index_first hleaf
    have hpc := hc.parent
    by_cases hfirst : queue.compare (queue.root (_downheap.next_index queue.compare
        queue.max_at_top queue.root queue.elements idx)) (queue.root idx) * queue.max_at_top ≥ 0
    · -- `element` orders at or before that child and stays
      have hdown : _downheap.down queue.compare queue.max_at_top (queue.root idx) queue.elements
          (queue.elements + 1) queue.root idx true =
          .inl (Function.update queue.root idx (queue.root idx)) := by
        rw [_downheap.down]
        dsimp only
        rw [if_pos hleaf, if_pos ⟨rfl, hfirst⟩]
      rw [_downheap_root_of_inl hdown]
      refine ⟨Ordered.of_first_le h hc ((compare_mul_nonneg_iff _ _).mp hfirst), ?_⟩
      rw [Function.update_eq_self]
    · -- the child moves up and the descent goes on without comparing
      obtain ⟨root', hole', heq, hn', hrise, hperm⟩ := _downheap.down_spec queue.elements
        (Function.update queue.root idx (queue.root _)) _ (by omega) hc.le_n
        (Down_order.start h h1 hc ((compare_mul_neg_iff _ _).mp (not_le.mp hfirst)))
      have hdown : _downheap.down queue.compare queue.max_at_top (queue.root idx) queue.elements
          (queue.elements + 1) queue.root idx true = .inr (root', hole') := by
        rw [_downheap.down]
        dsimp only
        rw [if_pos hleaf, if_neg (fun h => hfirst h.2)]
        exact heq
      rw [_downheap_root_of_inr hdown]
      obtain ⟨hord, hperm'⟩ := _downheap.up_spec h1 (hole' + 1) root' hole' (by omega) hn' hrise
      refine ⟨hord, hperm'.trans (hperm.trans ?_)⟩
      have hmove := items_move_perm queue.root (queue.root idx) ⟨h1, hn⟩ ⟨by omega, hc.le_n⟩
      rwa [Function.update_eq_self] at hmove
  · -- `idx` has no children: only the rise
    have hdown : _downheap.down queue.compare queue.max_at_top (queue.root idx) queue.elements
        (queue.elements + 1) queue.root idx true = .inr (queue.root, idx) := by
      rw [_downheap.down, if_neg hleaf]
    rw [_downheap_root_of_inr hdown]
    obtain ⟨hord, hperm⟩ := _downheap.up_spec h1 (idx + 1) queue.root idx (by omega) hn
      (Rise_order.of_leaf h (by omega))
    rw [Function.update_eq_self] at hperm
    exact ⟨hord, hperm⟩

/-- `queue_insert` keeps the heap ordered and adds `element` to the pointers it holds. -/
theorem queue_insert_ordered (queue : QUEUE α) [Total_preorder queue.compare] (element : α)
    (h : Heap_ordered queue) :
    Heap_ordered (queue_insert queue element) ∧
      (queue_insert queue element).items.Perm (queue.items ++ [element]) := by
  -- position 0, where `element` goes first, is outside the heap
  have h0 : Ordered (heap_le queue.compare queue.max_at_top)
      (Function.update queue.root 0 element) queue.elements 1 := by
    intro y h2 hn hs
    rw [Function.update_of_ne (show y ≠ 0 by omega), Function.update_of_ne (show y / 2 ≠ 0 by omega)]
    exact h y h2 hn hs
  obtain ⟨hord, hperm⟩ := queue_insert.loop_spec (queue.elements + 1)
    (Function.update queue.root 0 element) (queue.elements + 1) (Function.update_self ..)
    (by omega) (Nat.le_refl _) (Nat.le_refl _) (Up_order.start h0 element)
  refine ⟨hord, hperm.trans ?_⟩
  have hrest : items (Function.update (Function.update queue.root 0 element)
      (queue.elements + 1) element) queue.elements = queue.items :=
    items_congr fun y h1 hy => by
      rw [Function.update_of_ne (show y ≠ queue.elements + 1 by omega),
        Function.update_of_ne (show y ≠ 0 by omega)]
  rw [items_succ, Function.update_self, hrest]

/-- `queue_replaced` orders a heap whose only pairs out of order may be those at the top. -/
theorem queue_replaced_ordered (queue : QUEUE α) [Total_preorder queue.compare]
    (hn : 1 ≤ queue.elements)
    (h : Ordered_except (heap_le queue.compare queue.max_at_top) queue.root queue.elements 1 1) :
    Heap_ordered (queue_replaced queue) ∧ (queue_replaced queue).items.Perm queue.items :=
  _downheap_ordered queue (Nat.le_refl 1) hn h

/-- `queue_fix.loop i` orders a heap that is ordered from `i + 1` on. -/
theorem queue_fix.loop_ordered :
    ∀ (i : Nat) (queue : QUEUE α), Total_preorder queue.compare → i ≤ queue.elements / 2 →
      Ordered (heap_le queue.compare queue.max_at_top) queue.root queue.elements (i + 1) →
      Heap_ordered (queue_fix.loop i queue) ∧ (queue_fix.loop i queue).items.Perm queue.items
  | 0, _, _, _, h => ⟨h, List.Perm.refl _⟩
  | i + 1, queue, hc, hi, h => by
    have := hc
    obtain ⟨hord, hperm⟩ := _downheap_ordered queue (by omega) (by omega) h.except_succ
    obtain ⟨hord', hperm'⟩ := queue_fix.loop_ordered i (_downheap queue (i + 1)) hc
      (by rw [_downheap_elements]; omega) hord
    exact ⟨hord', hperm'.trans hperm⟩

/-- `queue_fix` orders any array of pointers, keeping them. -/
theorem queue_fix_ordered (queue : QUEUE α) [Total_preorder queue.compare] :
    Heap_ordered (queue_fix queue) ∧ (queue_fix queue).items.Perm queue.items :=
  queue_fix.loop_ordered _ queue ‹_› (Nat.le_refl _) (Ordered.of_half_lt _ (by omega))

/-- The array `3, 1, 2`, with the least on top: not yet a heap. -/
def unordered_queue : QUEUE Nat := ⟨fun i => [0, 3, 1, 2].getD i 0, 3, 3, 1, fun a b => (a : Int) - b⟩

/-- `queue_fix` makes `unordered_queue` a heap of the same numbers. -/
theorem queue_fix_ordered_three :
    Heap_ordered (queue_fix unordered_queue) ∧
      (queue_fix unordered_queue).items.Perm unordered_queue.items := by
  have : Total_preorder unordered_queue.compare :=
    ⟨fun a b => by simp only [unordered_queue]; omega,
      fun a b c => by simp only [unordered_queue]; omega⟩
  exact queue_fix_ordered unordered_queue

/-- `queue_remove` at `idx` returns the pointer at position `idx + 1`, keeps the others, and
    orders the heap from that position on. -/
theorem queue_remove_ordered_below (queue : QUEUE α) [Total_preorder queue.compare]
    {idx : Nat} (hidx : idx < queue.elements) (h : Heap_ordered queue) :
    Ordered (heap_le queue.compare queue.max_at_top) (queue_remove queue idx).1.root
        (queue.elements - 1) (idx + 1) ∧
      (queue.root (idx + 1) :: (queue_remove queue idx).1.items).Perm queue.items := by
  by_cases hlast : idx + 1 ≤ queue.elements - 1
  · -- the last pointer moves to `idx + 1`, inside the heap
    have hpre : Ordered_except (heap_le queue.compare queue.max_at_top)
        (Function.update queue.root (idx + 1) (queue.root queue.elements))
        (queue.elements - 1) (idx + 1) (idx + 1) := by
      intro y h2 hy hs hys hps
      rw [Function.update_of_ne hys, Function.update_of_ne hps]
      exact h y h2 (by omega) (by omega)
    obtain ⟨hord, hperm⟩ := _downheap_ordered { queue with
      root := Function.update queue.root (idx + 1) (queue.root queue.elements)
      elements := queue.elements - 1 } (by omega) hlast hpre
    refine ⟨hord, (hperm.cons _).trans ?_⟩
    -- the value written at `idx + 1` is the one that left position `elements`
    have hswap := items_update_perm queue.root (queue.root queue.elements)
      (show 1 ≤ idx + 1 ∧ idx + 1 ≤ queue.elements by omega)
    rw [show queue.elements = queue.elements - 1 + 1 by omega, items_succ,
      Function.update_of_ne (show queue.elements - 1 + 1 ≠ idx + 1 by omega),
      show queue.elements - 1 + 1 = queue.elements by omega] at hswap
    exact ((List.perm_append_singleton (queue.root queue.elements) (queue.root (idx + 1) ::
      items (Function.update queue.root (idx + 1) (queue.root queue.elements))
        (queue.elements - 1))).symm.trans hswap).cons_inv
  · -- the last position: nothing moves
    have hidx' : idx + 1 = queue.elements := by omega
    have hroot : (queue_remove queue idx).1.root = queue.root := by
      rw [queue_remove]
      dsimp only
      rw [_downheap_of_lt _ (show queue.elements - 1 < idx + 1 by omega), hidx',
        Function.update_eq_self]
    have hn : (queue_remove queue idx).1.elements = idx := by
      show queue.elements - 1 = idx
      omega
    rw [QUEUE.items, QUEUE.items, hroot, hn, ← hidx', Nat.add_sub_cancel]
    refine ⟨Ordered.of_half_lt _ (by omega), ?_⟩
    rw [items_succ]
    exact (List.perm_append_singleton _ _).symm

/-! ## Runs of a queue -/

section run

variable [DecidableEq α]

/-- The queues a caller reaches from `init_queue` by inserting below `max_elements`,
    removing the top, and writing a new top before `queue_replaced`, with the pointers put in
    and not taken out. -/
inductive Reachable : QUEUE α → List α → Prop
  | init (max_elements : Nat) (max_at_top : Bool) (compare : α → α → Int) (root : Nat → α) :
      Reachable (init_queue max_elements max_at_top compare root) []
  | insert {queue : QUEUE α} {held : List α} (element : α) :
      Reachable queue held → queue.elements < queue.max_elements →
      Reachable (queue_insert queue element) (held ++ [element])
  | remove_top {queue : QUEUE α} {held : List α} :
      Reachable queue held → 0 < queue.elements →
      Reachable (queue_remove queue 0).1 (held.erase (queue_remove queue 0).2)
  | replace_top {queue : QUEUE α} {held : List α} (element : α) :
      Reachable queue held → 0 < queue.elements →
      Reachable (queue_replaced { queue with root := Function.update queue.root 1 element })
        (held.erase (queue_top queue) ++ [element])

/-- Every reachable queue on a compare function that is a total preorder is ordered, holds
    the pointers put in and not taken out, and stays within `max_elements`. -/
theorem Reachable.ordered {queue : QUEUE α} {held : List α} (h : Reachable queue held)
    (hc : Total_preorder queue.compare) :
    Heap_ordered queue ∧ queue.items.Perm held ∧ queue.elements ≤ queue.max_elements := by
  induction h with
  | init max_elements max_at_top compare root =>
    exact ⟨Ordered.of_half_lt _ (by rw [init_queue_elements]; decide), List.Perm.refl _,
      Nat.zero_le _⟩
  | @insert queue held element _ hlt ih =>
    have hq : Total_preorder queue.compare := hc
    obtain ⟨hord, hperm, -⟩ := ih hq
    obtain ⟨hord', hperm'⟩ := queue_insert_ordered queue element hord
    exact ⟨hord', hperm'.trans (hperm.append_right _), hlt⟩
  | @remove_top queue held _ hpos ih =>
    have hq : Total_preorder queue.compare := hc
    obtain ⟨hord, hperm, hmax⟩ := ih hq
    obtain ⟨hord', hperm'⟩ := queue_remove_ordered_below queue hpos hord
    refine ⟨hord', ?_, by show queue.elements - 1 ≤ queue.max_elements; omega⟩
    -- the pointer returned is the one the queue held at the top
    have := (hperm'.trans hperm).erase (queue.root 1)
    rwa [List.erase_cons_head] at this
  | @replace_top queue held element _ hpos ih =>
    have hq : Total_preorder queue.compare := hc
    obtain ⟨hord, hperm, hmax⟩ := ih hq
    -- the new top is the only value that changed
    have hpre : Ordered_except (heap_le queue.compare queue.max_at_top)
        (Function.update queue.root 1 element) queue.elements 1 1 := by
      intro y h2 hy hs hy1 hp1
      rw [Function.update_of_ne hy1, Function.update_of_ne hp1]
      exact hord y h2 hy hs
    obtain ⟨hord', hperm'⟩ := @queue_replaced_ordered _
      { queue with root := Function.update queue.root 1 element } hq hpos hpre
    refine ⟨hord', hperm'.trans ?_, hmax⟩
    have htop : queue_top queue ∈ held := hperm.subset (mem_items _ (Nat.le_refl 1) hpos)
    have hswap := (items_update_perm queue.root element ⟨Nat.le_refl 1, hpos⟩).trans
      ((hperm.trans (List.perm_cons_erase htop)).cons element)
    exact (hswap.trans (List.Perm.swap _ _ _)).cons_inv.trans
      (List.perm_append_singleton _ _).symm

/-- The top of a reachable queue orders at or before every pointer it holds. -/
theorem Reachable.top_le {queue : QUEUE α} {held : List α} (h : Reachable queue held)
    (hc : Total_preorder queue.compare) :
    ∀ j, 1 ≤ j → j ≤ queue.elements →
      heap_le queue.compare queue.max_at_top (queue_top queue) (queue.root j) :=
  (h.ordered hc).1.top_le

/-- The top of a reachable queue that is not empty is one of the pointers it holds, and
    orders at or before each of them. -/
theorem Reachable.top_mem_le {queue : QUEUE α} {held : List α} (h : Reachable queue held)
    (hc : Total_preorder queue.compare) (hpos : 0 < queue.elements) :
    queue_top queue ∈ held ∧ ∀ a ∈ held, heap_le queue.compare queue.max_at_top (queue_top queue) a := by
  obtain ⟨-, hperm, -⟩ := h.ordered hc
  refine ⟨hperm.subset (mem_items _ (Nat.le_refl 1) hpos), fun a ha => ?_⟩
  obtain ⟨j, hj, rfl⟩ := List.mem_map.mp (hperm.symm.subset ha)
  rw [List.mem_range'_1] at hj
  exact h.top_le hc j hj.1 (by omega)

/-- A reachable queue holds as many pointers as it counts. -/
theorem Reachable.length_held {queue : QUEUE α} {held : List α} (h : Reachable queue held)
    (hc : Total_preorder queue.compare) : held.length = queue.elements := by
  obtain ⟨-, hperm, -⟩ := h.ordered hc
  rw [← hperm.length_eq, QUEUE.items, items, List.length_map, List.length_range']

end run

/-! ## Removing below the top -/

/-- `queue_remove` below the top only sifts the last pointer down from the position it
    empties. With numbers compared as keys and the least on top, the queue that inserts
    1, 4, 2, 5, 6, 7, 3 is ordered; removing index 3 puts 3 under 4, and after two removals
    of the top, `queue_top` is 4 while 3 is still queued. -/
theorem queue_remove_inner_breaks_order :
    ∃ queue : QUEUE Nat,
      queue = [1, 4, 2, 5, 6, 7, 3].foldl queue_insert
        (init_queue 8 false (fun a b : Nat => (a : Int) - b) fun _ => 0) ∧
      Total_preorder queue.compare ∧ Reachable queue [1, 4, 2, 5, 6, 7, 3] ∧
      Heap_ordered queue ∧ ¬ Heap_ordered (queue_remove queue 3).1 ∧
      (queue_remove (queue_remove (queue_remove queue 3).1 0).1 0).1.items = [4, 3, 7, 6] ∧
      queue_top (queue_remove (queue_remove (queue_remove queue 3).1 0).1 0).1 = 4 := by
  refine ⟨_, rfl, ?_, ?_, by decide +kernel, by decide +kernel, by decide +kernel,
    by decide +kernel⟩
  · show Total_preorder fun a b : Nat => (a : Int) - b
    exact ⟨fun a b => by omega, fun a b c => by omega⟩
  · -- seven inserts into the queue from init_queue, each below max_elements
    exact .insert 3 (.insert 7 (.insert 6 (.insert 5 (.insert 2 (.insert 4 (.insert 1
      (.init 8 false _ _) (by decide)) (by decide)) (by decide)) (by decide)) (by decide))
      (by decide)) (by decide)

end AliSql
