import Mathlib

/-!
# Binary heaps in an array

A heap of `n` elements in an array `root : Nat → α` holds them at positions `1..n`, the
parent of position `y` at `y / 2`. The order is a total preorder `le`; the heap is ordered
from position `s` on when every pair `y / 2, y` with `s ≤ y / 2` is in order (`Ordered`),
so that ordering from `s` on for every `s` down to 1 is what a bottom-up build needs.

A sift keeps a *hole*: a position whose value is about to be overwritten, with the element
`e` being placed held aside. Each invariant says which pairs are in order (those off the
hole), and how the hole's neighbours stand to each other and to `e`:

* `Up_order`, for a sift up from a leaf (inserting);
* `Down_order`, for the hole moving down along the children that order first, after a
  first comparison found that child before `e`;
* `Rise_order`, for the hole moving back up from where the descent ended, not above the
  start `s`.

Each has a `move` lemma for one step and a `finish` lemma for placing `e`. A step writes
the value it moves into the hole, so the values at `1..n` with `e` in the hole stay a
permutation of the values at the start (`items_move_perm`).
-/

set_option autoImplicit false

namespace Heap

variable {α : Type} (le : α → α → Prop)

/-- The pairs of positions `y / 2, y` among `1..n` with `s ≤ y / 2` are in order. -/
def Ordered (root : Nat → α) (n s : Nat) : Prop :=
  ∀ y, 2 ≤ y → y ≤ n → s ≤ y / 2 → le (root (y / 2)) (root y)

instance [DecidableRel le] (root : Nat → α) (n s : Nat) : Decidable (Ordered le root n s) :=
  decidable_of_iff (∀ y < n + 1, 2 ≤ y → s ≤ y / 2 → le (root (y / 2)) (root y))
    ⟨fun h y h2 hn hs => h y (by omega) h2 hs, fun h y hn h2 hs => h y h2 (by omega) hs⟩

/-- The same, for the pairs that do not touch `hole`. -/
def Ordered_except (root : Nat → α) (n s hole : Nat) : Prop :=
  ∀ y, 2 ≤ y → y ≤ n → s ≤ y / 2 → y ≠ hole → y / 2 ≠ hole → le (root (y / 2)) (root y)

/-- `c` is a child of `h` among `1..n` that orders at or before its sibling. -/
structure First_child (root : Nat → α) (n h c : Nat) : Prop where
  parent : c / 2 = h
  le_n : c ≤ n
  first : ∀ c', c' / 2 = h → c' ≤ n → le (root c) (root c')

/-- What a sift up needs: the pairs off the hole are in order, the hole's children are at
    or after its parent, and `e` is at or before them. -/
structure Up_order (root : Nat → α) (n hole : Nat) (e : α) : Prop where
  except : Ordered_except le root n 1 hole
  grand : 2 ≤ hole → ∀ c, c / 2 = hole → c ≤ n → le (root (hole / 2)) (root c)
  below : ∀ c, c / 2 = hole → c ≤ n → le e (root c)

/-- What the descent needs: the pairs from `s` on off the hole are in order, the hole's
    children are at or after its parent, and the value at `s` orders strictly before `e`. -/
structure Down_order (root : Nat → α) (n s hole : Nat) (e : α) : Prop where
  except : Ordered_except le root n s hole
  grand : ∀ c, c / 2 = hole → c ≤ n → le (root (hole / 2)) (root c)
  first : ¬ le e (root s)
  lt : s < hole

/-- What the rise back needs: the pairs from `s` on off the hole are in order, the hole's
    children are at or after its parent while that parent is below `s`, `e` is at or before
    the hole's children, and the value at `s` is at or before `e` unless the hole is `s`. -/
structure Rise_order (root : Nat → α) (n s hole : Nat) (e : α) : Prop where
  except : Ordered_except le root n s hole
  grand : s < hole / 2 → ∀ c, c / 2 = hole → c ≤ n → le (root (hole / 2)) (root c)
  below : ∀ c, c / 2 = hole → c ≤ n → le e (root c)
  top : hole ≠ s → le (root s) e
  le : s ≤ hole

section order

variable {le}

theorem le_of_not_le [Std.Total le] {a b : α} (h : ¬ le a b) : le b a :=
  (total_of le a b).resolve_left h

/-- Ordered from `s + 1` on, the pairs from `s` on that do not touch `s` are in order: what a
    sift down from `s` needs. -/
theorem Ordered.except_succ {root : Nat → α} {n s : Nat} (h : Ordered le root n (s + 1)) :
    Ordered_except le root n s s :=
  fun y h2 hn hs _ hps => h y h2 hn (by omega)

/-- No pair of `1..n` has its parent beyond `n / 2`. -/
theorem Ordered.of_half_lt (root : Nat → α) {n s : Nat} (hs : n / 2 < s) : Ordered le root n s :=
  fun y _ hn hys => absurd hys (by omega)

/-- The value at position 1 of an ordered heap is at or before every other. -/
theorem Ordered.top_le [IsTrans α le] [Std.Total le] {root : Nat → α} {n : Nat}
    (h : Ordered le root n 1) :
    ∀ y, 1 ≤ y → y ≤ n → le (root 1) (root y) := by
  intro y
  induction y using Nat.strongRecOn with
  | ind y ih =>
    intro h1 hn
    by_cases hy : y = 1
    · subst hy
      exact refl_of le _
    · -- through the parent, which is nearer the top
      have hp := ih (y / 2) (by omega) (by omega) (by omega)
      exact trans_of le hp (h y (by omega) hn (by omega))

/-! ## Moving the hole up

A step up writes the parent's value into the hole, and the parent becomes the hole. -/

theorem Ordered_except.move_up {root : Nat → α} {n s hole : Nat}
    (h : Ordered_except le root n s hole)
    (hgrand : ∀ c, c / 2 = hole → c ≤ n → le (root (hole / 2)) (root c)) :
    Ordered_except le (Function.update root hole (root (hole / 2))) n s (hole / 2) := by
  intro y hy2 hyn hs hyq hpq
  have hyh : y ≠ hole := fun h => hpq (by rw [h])
  rw [Function.update_of_ne hyh]
  by_cases hph : y / 2 = hole
  · rw [hph, Function.update_self]
    exact hgrand y hph hyn
  · rw [Function.update_of_ne hph]
    exact h y hy2 hyn hs hyh hph

/-- The parent of the hole is at or before the hole's sibling. -/
theorem Ordered_except.parent_le_sibling {root : Nat → α} {n s hole c : Nat}
    (h : Ordered_except le root n s hole) (hs : s ≤ hole / 2) (h2 : 2 ≤ hole)
    (hc : c / 2 = hole / 2) (hcn : c ≤ n) (hch : c ≠ hole) : le (root (hole / 2)) (root c) := by
  have := h c (by omega) hcn (by omega) hch (by omega)
  rwa [hc] at this

/-- After the step, what was at or before the moved value is at or before every child of the
    new hole. -/
theorem Ordered_except.le_children_up [IsTrans α le] {root : Nat → α} {n s hole : Nat} {a : α}
    (h : Ordered_except le root n s hole) (hs : s ≤ hole / 2) (h2 : 2 ≤ hole)
    (ha : le a (root (hole / 2))) :
    ∀ c, c / 2 = hole / 2 → c ≤ n → le a (Function.update root hole (root (hole / 2)) c) := by
  intro c hc hcn
  by_cases hch : c = hole
  · rw [hch, Function.update_self]
    exact ha
  · rw [Function.update_of_ne hch]
    exact trans_of le ha (h.parent_le_sibling hs h2 hc hcn hch)

/-! ## Sifting up -/

theorem Up_order.start {root : Nat → α} {n : Nat} (h : Ordered le root n 1) (e : α) :
    Up_order le root (n + 1) (n + 1) e where
  except := fun y h2 hn hs hy _ => h y h2 (by omega) hs
  grand := fun _ c hc hcn => absurd hcn (by omega)
  below := fun c hc hcn => absurd hcn (by omega)

theorem Up_order.move [IsTrans α le] [Std.Total le] {root : Nat → α} {n hole : Nat} {e : α}
    (o : Up_order le root n hole e)
    (h2 : 2 ≤ hole) (hn : hole ≤ n) (hb : ¬ le (root (hole / 2)) e) :
    Up_order le (Function.update root hole (root (hole / 2))) n (hole / 2) e := by
  constructor
  · exact o.except.move_up (o.grand h2)
  · intro hq2
    -- the new hole's parent was already at or before the value moved
    have hqq_q : le (root (hole / 2 / 2)) (root (hole / 2)) :=
      o.except (hole / 2) hq2 (by omega) (by omega) (by omega) (by omega)
    rw [Function.update_of_ne (show hole / 2 / 2 ≠ hole by omega)]
    exact o.except.le_children_up (by omega) h2 hqq_q
  · exact o.except.le_children_up (by omega) h2 (le_of_not_le hb)

theorem Up_order.finish {root : Nat → α} {n hole : Nat} {e : α} (o : Up_order le root n hole e)
    (hstop : 2 ≤ hole → le (root (hole / 2)) e) :
    Ordered le (Function.update root hole e) n 1 := by
  intro y hy2 hyn _
  by_cases hyh : y = hole
  · subst hyh
    rw [Function.update_self, Function.update_of_ne (by omega)]
    exact hstop hy2
  · rw [Function.update_of_ne hyh]
    by_cases hph : y / 2 = hole
    · rw [hph, Function.update_self]
      exact o.below y hph hyn
    · rw [Function.update_of_ne hph]
      exact o.except y hy2 hyn (by omega) hyh hph

/-! ## Sifting down from `s` -/

/-- The first comparison finds `e` at or before the child that orders first: `e` stays. -/
theorem Ordered.of_first_le [IsTrans α le] {root : Nat → α} {n s c : Nat} {e : α}
    (h : Ordered_except le root n s s) (hc : First_child le root n s c)
    (he : le e (root c)) : Ordered le (Function.update root s e) n s := by
  intro y hy2 hyn hs'
  rw [Function.update_of_ne (show y ≠ s by omega)]
  by_cases hps : y / 2 = s
  · rw [hps, Function.update_self]
    exact trans_of le he (hc.first y hps hyn)
  · rw [Function.update_of_ne hps]
    exact h y hy2 hyn hs' (by omega) hps

theorem Down_order.start {root : Nat → α} {n s c : Nat} {e : α}
    (h : Ordered_except le root n s s) (hs : 1 ≤ s) (hc : First_child le root n s c)
    (hlt : ¬ le e (root c)) :
    Down_order le (Function.update root s (root c)) n s c e := by
  have hcs : s < c := by have := hc.parent; omega
  constructor
  · intro y hy2 hyn hs' hyc hpc
    rw [Function.update_of_ne (show y ≠ s by omega)]
    by_cases hps : y / 2 = s
    · rw [hps, Function.update_self]
      exact hc.first y hps hyn
    · rw [Function.update_of_ne hps]
      exact h y hy2 hyn hs' (by omega) hps
  · intro c' hc' hcn
    rw [hc.parent, Function.update_self, Function.update_of_ne (show c' ≠ s by omega)]
    have := h c' (by omega) hcn (by omega) (by omega) (by omega)
    rwa [hc'] at this
  · rw [Function.update_self]
    exact hlt
  · exact hcs

theorem Down_order.move {root : Nat → α} {n s hole c : Nat} {e : α}
    (o : Down_order le root n s hole e) (hc : First_child le root n hole c) :
    Down_order le (Function.update root hole (root c)) n s c e := by
  have hsh := o.lt
  have hch : hole < c := by have := hc.parent; omega
  constructor
  · intro y hy2 hyn hs hyc hpc
    by_cases hyh : y = hole
    · subst hyh
      rw [Function.update_self, Function.update_of_ne (show y / 2 ≠ y by omega)]
      exact o.grand c hc.parent hc.le_n
    · rw [Function.update_of_ne hyh]
      by_cases hph : y / 2 = hole
      · rw [hph, Function.update_self]
        exact hc.first y hph hyn
      · rw [Function.update_of_ne hph]
        exact o.except y hy2 hyn hs hyh hph
  · intro c' hc' hcn
    rw [hc.parent, Function.update_self, Function.update_of_ne (show c' ≠ hole by omega)]
    have := o.except c' (by omega) hcn (by omega) (by omega) (by omega)
    rwa [hc'] at this
  · rw [Function.update_of_ne (show s ≠ hole by omega)]
    exact o.first
  · omega

/-- The descent ends at a position with no children: the rise starts there. -/
theorem Down_order.rise [Std.Total le] {root : Nat → α} {n s hole : Nat} {e : α}
    (o : Down_order le root n s hole e) (hleaf : n / 2 < hole) :
    Rise_order le root n s hole e where
  except := o.except
  grand := fun _ c hc hcn => absurd hcn (by omega)
  below := fun c hc hcn => absurd hcn (by omega)
  top := fun _ => le_of_not_le o.first
  le := Nat.le_of_lt o.lt

/-- Starting at a position with no children, there is no descent. -/
theorem Rise_order.of_leaf {root : Nat → α} {n s : Nat} {e : α}
    (h : Ordered_except le root n s s) (hleaf : n / 2 < s) : Rise_order le root n s s e where
  except := h
  grand := fun hs => absurd hs (by omega)
  below := fun c hc hcn => absurd hcn (by omega)
  top := fun hne => absurd rfl hne
  le := Nat.le_refl s

theorem Rise_order.move [IsTrans α le] {root : Nat → α} {n s hole : Nat} {e : α}
    (o : Rise_order le root n s hole e) (hp : s < hole / 2) (hn : hole ≤ n)
    (hle : le e (root (hole / 2))) :
    Rise_order le (Function.update root hole (root (hole / 2))) n s (hole / 2) e := by
  constructor
  · exact o.except.move_up (o.grand hp)
  · intro hqq
    have hqq_q : le (root (hole / 2 / 2)) (root (hole / 2)) :=
      o.except (hole / 2) (by omega) (by omega) (by omega) (by omega) (by omega)
    rw [Function.update_of_ne (show hole / 2 / 2 ≠ hole by omega)]
    exact o.except.le_children_up (by omega) (by omega) hqq_q
  · exact o.except.le_children_up (by omega) (by omega) hle
  · intro _
    rw [Function.update_of_ne (show s ≠ hole by omega)]
    exact o.top (by omega)
  · omega

theorem Rise_order.finish {root : Nat → α} {n s hole : Nat} {e : α}
    (o : Rise_order le root n s hole e) (hs : 1 ≤ s)
    (hstop : s < hole / 2 → le (root (hole / 2)) e) :
    Ordered le (Function.update root hole e) n s := by
  intro y hy2 hyn hs'
  by_cases hyh : y = hole
  · subst hyh
    rw [Function.update_self, Function.update_of_ne (show y / 2 ≠ y by omega)]
    by_cases hlt : s < y / 2
    · exact hstop hlt
    · -- the hole's parent is `s`, whose value the descent found before `e`
      have hps : y / 2 = s := by omega
      rw [hps]
      exact o.top (by omega)
  · rw [Function.update_of_ne hyh]
    by_cases hph : y / 2 = hole
    · rw [hph, Function.update_self]
      exact o.below y hph hyn
    · rw [Function.update_of_ne hph]
      exact o.except y hy2 hyn hs' hyh hph

end order

/-! ## The values held -/

/-- The values at positions `1..n`. -/
def items (root : Nat → α) (n : Nat) : List α := (List.range' 1 n).map root

theorem mem_items (root : Nat → α) {n y : Nat} (h1 : 1 ≤ y) (hy : y ≤ n) :
    root y ∈ items root n :=
  List.mem_map_of_mem (List.mem_range'_1.mpr ⟨h1, by omega⟩)

theorem items_succ (root : Nat → α) (n : Nat) :
    items root (n + 1) = items root n ++ [root (n + 1)] := by
  rw [items, List.range'_1_concat, List.map_append]
  simp [items, Nat.add_comm]

theorem items_congr {root root' : Nat → α} {n : Nat}
    (h : ∀ y, 1 ≤ y → y ≤ n → root' y = root y) :
    items root' n = items root n :=
  List.map_congr_left (fun y hy => by
    rw [List.mem_range'_1] at hy
    exact h y hy.1 (by omega))

/-- Exchanging two of the positions `1..n` permutes the values. -/
theorem items_comp_swap (root : Nat → α) {n i j : Nat} (hi : 1 ≤ i ∧ i ≤ n)
    (hj : 1 ≤ j ∧ j ≤ n) : (items (root ∘ Equiv.swap i j) n).Perm (items root n) := by
  rw [items, ← List.map_map]
  apply List.Perm.map
  apply (List.perm_ext_iff_of_nodup (List.Nodup.map (Equiv.injective _) (List.nodup_range' ..))
    (List.nodup_range' ..)).mpr
  intro a
  simp only [List.mem_map, List.mem_range'_1]
  constructor
  · rintro ⟨x, hx, rfl⟩
    rw [Equiv.swap_apply_def]
    split_ifs <;> omega
  · intro ha
    refine ⟨Equiv.swap i j a, ?_, Equiv.swap_apply_self i j a⟩
    rw [Equiv.swap_apply_def]
    split_ifs <;> omega

open List in
/-- Writing `e` at one of the positions `1..n` trades the value there for `e`. -/
theorem items_update_perm (root : Nat → α) (e : α) {n h : Nat} (hh : 1 ≤ h ∧ h ≤ n) :
    (root h :: items (Function.update root h e) n).Perm (e :: items root n) := by
  induction n with
  | zero => omega
  | succ n ih =>
    rw [items_succ, items_succ]
    by_cases hn : h = n + 1
    · -- the last position: the rest is unchanged
      subst hn
      have hrest : items (Function.update root (n + 1) e) n = items root n :=
        items_congr fun y _ hy => Function.update_of_ne (by omega) _ _
      rw [Function.update_self, hrest]
      calc root (n + 1) :: (items root n ++ [e])
          _ ~ root (n + 1) :: e :: items root n := (List.perm_append_singleton e _).cons _
          _ ~ e :: root (n + 1) :: items root n := List.Perm.swap _ _ _
          _ ~ e :: (items root n ++ [root (n + 1)]) :=
            ((List.perm_append_singleton _ _).symm).cons _
    · rw [Function.update_of_ne (Ne.symm hn)]
      exact (ih ⟨hh.1, by omega⟩).append_right [root (n + 1)]

/-- Moving the value at `c` into the hole `h` and making `c` the hole keeps the values
    held with `e` in the hole. -/
theorem items_move_perm (root : Nat → α) (e : α) {n h c : Nat} (hh : 1 ≤ h ∧ h ≤ n)
    (hc : 1 ≤ c ∧ c ≤ n) :
    (items (Function.update (Function.update root h (root c)) c e) n).Perm
      (items (Function.update root h e) n) := by
  by_cases hhc : h = c
  · subst hhc
    rw [Function.update_idem]
  · have hfun : Function.update (Function.update root h (root c)) c e =
        Function.update root h e ∘ Equiv.swap h c := by
      funext x
      simp only [Function.comp, Equiv.swap_apply_def, Function.update_apply]
      split_ifs <;> simp_all
    rw [hfun]
    exact items_comp_swap _ hh hc

end Heap
