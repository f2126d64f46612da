import Mathlib
import AliSql.Libc.Basic

/-!
# `trx0trx.cc`, `read0read.cc`: the descriptor array and read views

InnoDB keeps the ids of the active read-write transactions in one array of
`trx_sys`, `descriptors[0 .. descr_n_used)`, in ascending order, so that a read view
can copy it and `bsearch` it. `trx_reserve_descriptor` appends a new id, growing the
array by doubling `descr_n_max` when it is full; an id smaller than the last one (crash
recovery) walks back to its slot and `memmove`s the tail one cell up.
`trx_release_descriptor` finds the id with `bsearch` and `memmove`s the tail down.
`read_view_open_now_low` copies the array around the creating transaction's slot into a
new view, and `read_view_sees_trx_id` decides visibility from the view's two limits, its
creator and a `bsearch` of its copy.

The array is the list of its `descr_n_max` cells; `ut_realloc` keeps the cells and adds
as many of unknown content (zeros here, never read). A transaction is its id and its
serialisation number `no`, and `in_trx_serial_list` is membership in `trx_serial_list`.
The view's array is the list of the cells copied into it. Pointer arithmetic on slots is
arithmetic on indices.

What is proved:

* every run of reservations of new positive ids and of releases keeps the used cells
  strictly ascending, equal as a set to the ids reserved and not released, and within
  the array (`descriptors_sorted_set`);
* on such an array, the view opened for a creator sees exactly the creator and the ids
  below `max_trx_id` that are not another active transaction (`read_view_snapshot`).
-/

set_option autoImplicit false

namespace AliSql

open Libc

/-! ## Transactions and `trx_sys` -/

/-- A transaction, as the descriptor code reads it: its id and its serialisation number. -/
structure trx_t where
  id : Nat
  no : Nat
deriving DecidableEq, Repr

/-- The fields of `trx_sys_t` the descriptor array and the read views use. -/
structure trx_sys_t where
  max_trx_id : Nat
  descriptors : List Nat
  descr_n_max : Nat
  descr_n_used : Nat
  trx_serial_list : List trx_t
deriving Repr

/-- `TRX_DESCR_ARRAY_INITIAL_SIZE` (`trx0sys.h`). -/
def TRX_DESCR_ARRAY_INITIAL_SIZE : Nat := 1000

/-- The descriptor array as `trx_sys_init_at_db_start` allocates it, with `max_trx_id` as
    read from the system header. -/
def trx_sys_init (max_trx_id : Nat) : trx_sys_t where
  max_trx_id := max_trx_id
  descriptors := List.replicate TRX_DESCR_ARRAY_INITIAL_SIZE 0
  descr_n_max := TRX_DESCR_ARRAY_INITIAL_SIZE
  descr_n_used := 0
  trx_serial_list := []

/-- The used cells: the ids of the active read-write transactions. -/
def trx_sys_t.active (sys : trx_sys_t) : List Nat := sys.descriptors.take sys.descr_n_used

/-- `trx_descr_cmp`. -/
def trx_descr_cmp (a b : Nat) : Int := if a < b then -1 else if a > b then 1 else 0

/-- `trx_find_descriptor(descriptors, n_descr, trx_id)`: the slot of `trx_id`. -/
def trx_find_descriptor (descriptors : List Nat) (n_descr trx_id : Nat) : Option Nat :=
  if n_descr = 0 ∨ trx_id = 0 then none
  else bsearch trx_id descriptors n_descr trx_descr_cmp

/-! ## Reserving and releasing a slot -/

/-- The walk back of `trx_reserve_descriptor` over the `k` cells below the new one: it
    passes the cells that hold a larger id and stops at the start of the array; the
    result is the slot after the cell it stopped at (`tdescr++`). -/
def trx_reserve_descriptor.slot (descriptors : List Nat) (id : Nat) : Nat → Nat
  | 0 => 0
  | k + 1 =>
    if descriptors.getD k 0 > id then trx_reserve_descriptor.slot descriptors id k else k + 1

/-- `trx_reserve_descriptor(trx)`. The cells `[tdescr, descr)` move one up and the id is
    stored at `tdescr`; without the walk back `tdescr` is `descr` and only the store is
    left. -/
def trx_reserve_descriptor (sys : trx_sys_t) (trx : trx_t) : trx_sys_t :=
  let n_used := sys.descr_n_used + 1
  let (descriptors, n_max) :=
    if n_used > sys.descr_n_max then
      (sys.descriptors ++ List.replicate sys.descr_n_max 0, sys.descr_n_max * 2)
    else (sys.descriptors, sys.descr_n_max)
  let descr := n_used - 1
  let tdescr :=
    if n_used > 1 ∧ trx.id < descriptors.getD (descr - 1) 0 then
      trx_reserve_descriptor.slot descriptors trx.id descr
    else descr
  { sys with
    descriptors := descriptors.take tdescr ++ trx.id :: (descriptors.drop tdescr).take (descr - tdescr) ++
      descriptors.drop (descr + 1)
    descr_n_max := n_max
    descr_n_used := n_used }

/-- `trx_release_descriptor(trx)`: the transaction leaves the serialisation list, and its
    slot, if any, is closed by moving the `size` cells above it one down. -/
def trx_release_descriptor (sys : trx_sys_t) (trx : trx_t) : trx_sys_t :=
  let sys := { sys with trx_serial_list := sys.trx_serial_list.erase trx }
  match trx_find_descriptor sys.descriptors sys.descr_n_used trx.id with
  | none => sys
  | some i =>
    let size := sys.descr_n_used - 1 - i
    { sys with
      descriptors := sys.descriptors.take i ++ (sys.descriptors.drop (i + 1)).take size ++
        sys.descriptors.drop (i + size)
      descr_n_used := sys.descr_n_used - 1 }

example : (trx_reserve_descriptor (trx_reserve_descriptor (trx_sys_init 9) ⟨7, 0⟩) ⟨4, 0⟩).active =
    [4, 7] := by decide
example : (trx_release_descriptor ⟨9, [3, 5, 8, 0], 4, 3, []⟩ ⟨5, 0⟩).active = [3, 8] := by
  simp [trx_release_descriptor, trx_find_descriptor, bsearch, bsearch.loop, trx_descr_cmp,
    trx_sys_t.active]

/-! ## Read views -/

/-- `VIEW_NORMAL` (`read0read.h`). -/
def VIEW_NORMAL : Nat := 1

/-- The fields of `read_view_t` that opening and reading a view set and use. -/
structure read_view_t where
  type : Nat
  undo_no : Nat
  low_limit_no : Nat
  low_limit_id : Nat
  up_limit_id : Nat
  n_descr : Nat
  descriptors : List Nat
  creator_trx_id : Nat
deriving Repr

/-- `read_view_open_now_low(cr_trx_id, view, is_purge)`: the view's fields as it returns
    them; the creator's slot `i`, or `descr_n_used` when it has none, splits the copy. -/
def read_view_open_now_low (sys : trx_sys_t) (cr_trx_id : Nat) : read_view_t :=
  let (n_descr, i) :=
    match trx_find_descriptor sys.descriptors sys.descr_n_used cr_trx_id with
    | some i => (sys.descr_n_used - 1, i)
    | none => (sys.descr_n_used, sys.descr_n_used)
  -- the copies of `[0, i)` and of `[i + 1, descr_n_used)`
  let descriptors := sys.descriptors.take i ++
    if i + 1 < sys.descr_n_used then (sys.descriptors.drop (i + 1)).take (sys.descr_n_used - i - 1)
    else []
  let low_limit_no :=
    match sys.trx_serial_list.head? with
    | some trx => if trx.no < sys.max_trx_id then trx.no else sys.max_trx_id
    | none => sys.max_trx_id
  { type := VIEW_NORMAL
    undo_no := 0
    low_limit_no := low_limit_no
    low_limit_id := sys.max_trx_id
    up_limit_id := if n_descr > 0 then descriptors.getD 0 0 else sys.max_trx_id
    n_descr := n_descr
    descriptors := descriptors
    creator_trx_id := cr_trx_id }

/-- `read_view_sees_trx_id(view, trx_id)`. -/
def read_view_sees_trx_id (view : read_view_t) (trx_id : Nat) : Bool :=
  if trx_id < view.up_limit_id ∨ trx_id = view.creator_trx_id then true
  else if trx_id ≥ view.low_limit_id then false
  else (trx_find_descriptor view.descriptors view.n_descr trx_id).isNone

example : read_view_sees_trx_id (read_view_open_now_low ⟨9, [3, 5, 8, 0], 4, 3, []⟩ 5) 8 = false := by
  simp [read_view_sees_trx_id, read_view_open_now_low, trx_find_descriptor, bsearch, bsearch.loop,
    trx_descr_cmp]

/-! ## Finding a slot -/

theorem trx_descr_cmp_orders : Compar_orders trx_descr_cmp where
  neg_iff a b := by unfold trx_descr_cmp; split_ifs <;> omega
  pos_iff a b := by unfold trx_descr_cmp; split_ifs <;> omega

/-- A strictly ascending prefix of an array, read cell by cell. -/
theorem getD_lt_getD {d : List Nat} {n : Nat} (h : (d.take n).Pairwise (· < ·))
    (hn : n ≤ d.length) {i j : Nat} (hij : i < j) (hj : j < n) : d.getD i 0 < d.getD j 0 := by
  have hlen : (d.take n).length = n := by simp only [List.length_take]; omega
  have := List.pairwise_iff_getElem.mp h i j (by omega) (by omega) hij
  rwa [List.getElem_take, List.getElem_take, ← List.getD_eq_getElem _ 0,
    ← List.getD_eq_getElem _ 0] at this

theorem mem_take_iff_getD {d : List Nat} {n x : Nat} (hn : n ≤ d.length) :
    x ∈ d.take n ↔ ∃ i < n, d.getD i 0 = x := by
  rw [List.mem_iff_getElem]
  constructor
  · rintro ⟨i, hi, rfl⟩
    simp only [List.length_take] at hi
    exact ⟨i, by omega, by rw [List.getElem_take, List.getD_eq_getElem]⟩
  · rintro ⟨i, hi, rfl⟩
    exact ⟨i, by simp only [List.length_take]; omega, by rw [List.getElem_take, List.getD_eq_getElem]⟩

/-- What `trx_find_descriptor` returns is a slot of the array holding the id. -/
theorem trx_find_descriptor_eq_some {d : List Nat} {n id i : Nat}
    (h : trx_find_descriptor d n id = some i) : i < n ∧ d.getD i 0 = id := by
  unfold trx_find_descriptor at h
  split_ifs at h
  exact bsearch_sound trx_descr_cmp_orders h

/-- On a strictly ascending array, `trx_find_descriptor` misses an id exactly when it is
    0 or not among the first `n` cells. -/
theorem trx_find_descriptor_eq_none_iff {d : List Nat} {n id : Nat}
    (hsorted : (d.take n).Pairwise (· < ·)) (hn : n ≤ d.length) :
    trx_find_descriptor d n id = none ↔ id = 0 ∨ id ∉ d.take n := by
  unfold trx_find_descriptor
  split_ifs with h0
  · simp only [true_iff]
    rcases h0 with rfl | rfl
    · exact Or.inr (by simp)
    · exact Or.inl rfl
  · rw [bsearch_eq_none_iff trx_descr_cmp_orders (fun i j hij hj => getD_lt_getD hsorted hn hij hj),
      mem_take_iff_getD hn]
    constructor
    · intro h
      exact Or.inr fun ⟨i, hi, hx⟩ => h i hi hx
    · rintro (h | h) i hi hx
      · omega
      · exact h ⟨i, hi, hx⟩

theorem mem_drop_take_iff_getD {d : List Nat} {n p x : Nat} (hn : n ≤ d.length) :
    x ∈ (d.take n).drop p ↔ ∃ i, p ≤ i ∧ i < n ∧ d.getD i 0 = x := by
  rw [List.drop_take, mem_take_iff_getD (by simp only [List.length_drop]; omega)]
  simp only [List.getD_eq_getElem?_getD, List.getElem?_drop]
  constructor
  · rintro ⟨k, hk, hx⟩
    exact ⟨p + k, by omega, by omega, hx⟩
  · rintro ⟨i, hpi, hi, hx⟩
    exact ⟨i - p, by omega, by rwa [Nat.add_sub_cancel' hpi]⟩

theorem active_getD {sys : trx_sys_t} {i : Nat} (hi : i < sys.descr_n_used) :
    sys.active.getD i 0 = sys.descriptors.getD i 0 := by
  simp [trx_sys_t.active, List.getD_eq_getElem?_getD, hi]

/-- Closing the slot of an id in a list without repetitions erases the id. -/
theorem take_append_drop_succ_eq_erase {A : List Nat} (hnd : A.Nodup) {i : Nat} (hi : i < A.length) :
    A.take i ++ A.drop (i + 1) = A.erase (A.getD i 0) := by
  rw [List.getD_eq_getElem _ 0 hi, hnd.erase_getElem i hi, List.eraseIdx_eq_take_drop_succ]

/-! ## The descriptor array stays a sorted set -/

/-- The descriptor array as reservations and releases keep it: it has its `descr_n_max`
    cells, at least one, and the used ones among them, strictly ascending and positive. -/
structure Descr_ok (sys : trx_sys_t) : Prop where
  length : sys.descriptors.length = sys.descr_n_max
  used_le : sys.descr_n_used ≤ sys.descr_n_max
  max_pos : 0 < sys.descr_n_max
  sorted : sys.active.Pairwise (· < ·)
  pos : ∀ x ∈ sys.active, 0 < x

/-- The used cells after the `memmove` and the store of `trx_reserve_descriptor`: the id
    at slot `p` of the `n` used ones, those from `p` on one cell up. -/
theorem take_insert_at {d : List Nat} {n p x : Nat} (hp : p ≤ n) (hn : n + 1 ≤ d.length) :
    (d.take p ++ x :: (d.drop p).take (n - p) ++ d.drop (n + 1)).take (n + 1) =
      (d.take n).take p ++ x :: (d.take n).drop p := by
  have hlen : (d.take p ++ x :: (d.drop p).take (n - p)).length = n + 1 := by
    simp only [List.length_append, List.length_take, List.length_cons, List.length_drop]
    omega
  rw [List.take_left' hlen, List.take_take, List.drop_take, min_eq_left hp]

/-- Putting `x` between the first `p` elements of a list and the rest. -/
theorem mem_take_append_cons_drop {A : List Nat} {p x y : Nat} :
    y ∈ A.take p ++ x :: A.drop p ↔ y = x ∨ y ∈ A := by
  conv_rhs => rw [← List.take_append_drop p A]
  simp only [List.mem_append, List.mem_cons]
  tauto

/-- An id put between the smaller and the larger elements of a strictly ascending list
    keeps it strictly ascending. -/
theorem pairwise_take_append_cons_drop {A : List Nat} (hA : A.Pairwise (· < ·)) {p x : Nat}
    (hlo : ∀ a ∈ A.take p, a < x) (hhi : ∀ b ∈ A.drop p, x < b) :
    (A.take p ++ x :: A.drop p).Pairwise (· < ·) := by
  rw [← List.take_append_drop p A] at hA
  obtain ⟨htake, hdrop, hcross⟩ := List.pairwise_append.mp hA
  refine List.pairwise_append.mpr ⟨htake, List.pairwise_cons.mpr ⟨hhi, hdrop⟩, ?_⟩
  intro a ha b hb
  rcases List.mem_cons.mp hb with rfl | hb
  · exact hlo a ha
  · exact hcross a ha b hb

theorem Descr_ok.init (max_trx_id : Nat) : Descr_ok (trx_sys_init max_trx_id) where
  length := List.length_replicate
  used_le := Nat.zero_le _
  max_pos := show 0 < TRX_DESCR_ARRAY_INITIAL_SIZE by decide
  sorted := List.Pairwise.nil
  pos := fun _ hx => absurd hx List.not_mem_nil

/-- **Releasing** erases the id from the used cells, and the array stays as it was. -/
theorem Descr_ok.release {sys : trx_sys_t} (h : Descr_ok sys) (trx : trx_t) :
    Descr_ok (trx_release_descriptor sys trx) ∧
      (trx_release_descriptor sys trx).active = sys.active.erase trx.id := by
  have hn : sys.descr_n_used ≤ sys.descriptors.length := h.length ▸ h.used_le
  unfold trx_release_descriptor
  dsimp only
  cases hf : trx_find_descriptor sys.descriptors sys.descr_n_used trx.id with
  | none =>
    -- no slot: only the serialisation list changes
    have habs : trx.id ∉ sys.active := by
      rcases (trx_find_descriptor_eq_none_iff h.sorted hn).mp hf with h0 | h0
      · exact fun hm => absurd (h.pos _ hm) (by omega)
      · exact h0
    exact ⟨⟨h.length, h.used_le, h.max_pos, h.sorted, h.pos⟩, (List.erase_of_not_mem habs).symm⟩
  | some i =>
    obtain ⟨hi, hid⟩ := trx_find_descriptor_eq_some hf
    -- the used cells after the move: those below the slot, then those above it
    have hactive : (sys.descriptors.take i ++ (sys.descriptors.drop (i + 1)).take
        (sys.descr_n_used - 1 - i) ++ sys.descriptors.drop (i + (sys.descr_n_used - 1 - i))).take
          (sys.descr_n_used - 1) = sys.active.erase trx.id := by
      have hA : sys.active.length = sys.descr_n_used := by
        simp only [trx_sys_t.active, List.length_take]; omega
      rw [List.take_append_of_le_length (by simp; omega), List.take_of_length_le (by simp; omega),
        ← hid, ← active_getD hi, ← take_append_drop_succ_eq_erase h.sorted.nodup (by omega)]
      simp only [trx_sys_t.active, List.take_take, List.drop_take]
      congr 2 <;> omega
    refine ⟨⟨?_, by dsimp only; have := h.used_le; omega, h.max_pos, ?_, ?_⟩, hactive⟩
    · have := h.used_le
      simp only [List.length_append, List.length_take, List.length_drop, h.length]
      omega
    · show List.Pairwise _ (List.take _ _)
      rw [hactive]
      exact h.sorted.sublist List.erase_sublist
    · intro x hx
      rw [trx_sys_t.active, hactive] at hx
      exact h.pos x (List.erase_sublist.subset hx)

/-- The growth check of `trx_reserve_descriptor` leaves room for one more used cell and
    the used ones as they were. -/
theorem trx_reserve_descriptor.grow {sys : trx_sys_t} (h : Descr_ok sys) {d : List Nat} {n_max : Nat}
    (hg : (if sys.descr_n_used + 1 > sys.descr_n_max then
      (sys.descriptors ++ List.replicate sys.descr_n_max 0, sys.descr_n_max * 2)
      else (sys.descriptors, sys.descr_n_max)) = (d, n_max)) :
    d.length = n_max ∧ sys.descr_n_used + 1 ≤ n_max ∧ d.take sys.descr_n_used = sys.active := by
  have := h.used_le
  have := h.max_pos
  have := h.length
  split_ifs at hg with hfull
  · -- full: `ut_realloc` doubles the array and keeps its cells
    obtain ⟨rfl, rfl⟩ := Prod.mk.inj hg
    refine ⟨by simp only [List.length_append, List.length_replicate, h.length]; omega, by omega, ?_⟩
    exact List.take_append_of_le_length (by omega)
  · obtain ⟨rfl, rfl⟩ := Prod.mk.inj hg
    exact ⟨h.length, by omega, rfl⟩

/-- Without a larger last id the walk back does not start, and `tdescr` is `descr`, where
    the walk would stop at once. -/
theorem trx_reserve_descriptor.tdescr_eq_slot (d : List Nat) (id n : Nat) :
    (if n + 1 > 1 ∧ id < d.getD (n + 1 - 1 - 1) 0 then trx_reserve_descriptor.slot d id (n + 1 - 1)
      else n + 1 - 1) = trx_reserve_descriptor.slot d id n := by
  cases n with
  | zero => simp [trx_reserve_descriptor.slot]
  | succ k =>
    simp only [Nat.add_sub_cancel, trx_reserve_descriptor.slot]
    split_ifs <;> omega

/-- **The walk back** stops at the slot that splits the used cells at the new id: those
    below it hold smaller ids, those from it on larger ones. The induction is on the cells
    left to pass, `k`, with the cells `[k, n)` already passed as the invariant. -/
theorem trx_reserve_descriptor.slot_spec {d : List Nat} {id n : Nat}
    (hsorted : ∀ i j, i < j → j < n → d.getD i 0 < d.getD j 0) (hnew : ∀ j < n, d.getD j 0 ≠ id) :
    ∀ k, k ≤ n → (∀ j, k ≤ j → j < n → id < d.getD j 0) →
      trx_reserve_descriptor.slot d id k ≤ k ∧
        (∀ j < trx_reserve_descriptor.slot d id k, d.getD j 0 < id) ∧
        (∀ j, trx_reserve_descriptor.slot d id k ≤ j → j < n → id < d.getD j 0)
  | 0, _, habove => ⟨le_refl 0, fun j hj => absurd hj (Nat.not_lt_zero j), habove⟩
  | k + 1, hk, habove => by
    unfold trx_reserve_descriptor.slot
    split_ifs with hgt
    · -- the cell holds a larger id: the walk passes it
      have hpassed : ∀ j, k ≤ j → j < n → id < d.getD j 0 := by
        intro j hj hjn
        rcases Nat.lt_or_eq_of_le hj with hj | rfl
        · exact habove j hj hjn
        · exact hgt
      obtain ⟨h₁, h₂, h₃⟩ := slot_spec hsorted hnew k (by omega) hpassed
      exact ⟨by omega, h₂, h₃⟩
    · -- the cell holds a smaller id: the slot is just above it
      have hlt : d.getD k 0 < id := lt_of_le_of_ne (not_lt.mp hgt) (hnew k (by omega))
      refine ⟨le_refl _, fun j hj => ?_, habove⟩
      rcases Nat.lt_or_eq_of_le (Nat.lt_succ_iff.mp hj) with hj | rfl
      · exact (hsorted j k hj (by omega)).trans hlt
      · exact hlt

/-- **Reserving** a new positive id inserts it into the used cells at its place. -/
theorem Descr_ok.reserve {sys : trx_sys_t} (h : Descr_ok sys) {trx : trx_t} (hid : 0 < trx.id)
    (hnew : trx.id ∉ sys.active) :
    Descr_ok (trx_reserve_descriptor sys trx) ∧
      ∀ x, x ∈ (trx_reserve_descriptor sys trx).active ↔ x = trx.id ∨ x ∈ sys.active := by
  unfold trx_reserve_descriptor
  dsimp only
  generalize hg : (if sys.descr_n_used + 1 > sys.descr_n_max then
    (sys.descriptors ++ List.replicate sys.descr_n_max 0, sys.descr_n_max * 2)
    else (sys.descriptors, sys.descr_n_max)) = g
  obtain ⟨d, n_max⟩ := g
  obtain ⟨hlen, hroom, htake⟩ := trx_reserve_descriptor.grow h hg
  dsimp only
  rw [trx_reserve_descriptor.tdescr_eq_slot]
  simp only [Nat.add_sub_cancel]
  -- the used cells, read by index in the grown array
  have hsorted : ∀ i j, i < j → j < sys.descr_n_used → d.getD i 0 < d.getD j 0 :=
    fun i j hij hj => getD_lt_getD (htake ▸ h.sorted) (by omega) hij hj
  have hne : ∀ j < sys.descr_n_used, d.getD j 0 ≠ trx.id := fun j hj hx =>
    hnew (htake ▸ (mem_take_iff_getD (by omega)).mpr ⟨j, hj, hx⟩)
  obtain ⟨hp, hlo, hhi⟩ := trx_reserve_descriptor.slot_spec hsorted hne sys.descr_n_used le_rfl
    fun j h₁ h₂ => absurd h₂ (by omega)
  generalize trx_reserve_descriptor.slot d trx.id sys.descr_n_used = p at hp hlo hhi
  -- the new used cells: the id between the old ones below and above its slot
  have hactive : (d.take p ++ trx.id :: (d.drop p).take (sys.descr_n_used - p) ++
      d.drop (sys.descr_n_used + 1)).take (sys.descr_n_used + 1) =
        sys.active.take p ++ trx.id :: sys.active.drop p := by
    rw [← htake]
    exact take_insert_at hp (by omega)
  have hmem : ∀ x, x ∈ sys.active.take p ++ trx.id :: sys.active.drop p ↔ x = trx.id ∨ x ∈ sys.active :=
    fun x => mem_take_append_cons_drop
  refine ⟨⟨?_, hroom, Nat.lt_of_lt_of_le (Nat.succ_pos _) hroom, ?_, ?_⟩, ?_⟩
  · simp only [List.length_append, List.length_take, List.length_cons, List.length_drop]
    omega
  · show List.Pairwise _ (List.take _ _)
    rw [hactive]
    refine pairwise_take_append_cons_drop h.sorted (fun a ha => ?_) (fun b hb => ?_)
    · rw [← htake, List.take_take, min_eq_left hp, mem_take_iff_getD (by omega)] at ha
      obtain ⟨j, hj, rfl⟩ := ha
      exact hlo j hj
    · rw [← htake, mem_drop_take_iff_getD (by omega)] at hb
      obtain ⟨j, hpj, hj, rfl⟩ := hb
      exact hhi j hpj hj
  · intro x hx
    rw [trx_sys_t.active, hactive, hmem] at hx
    rcases hx with rfl | hx
    · exact hid
    · exact h.pos x hx
  · intro x
    rw [trx_sys_t.active, hactive, hmem]

/-- A run of the descriptor array from `trx_sys_init`, with the set of ids reserved and
    not yet released: a reservation is of a positive id not among the used cells. -/
inductive Descr_run : trx_sys_t → Finset Nat → Prop
  | init (max_trx_id : Nat) : Descr_run (trx_sys_init max_trx_id) ∅
  | reserve {sys : trx_sys_t} {S : Finset Nat} (trx : trx_t) :
      Descr_run sys S → 0 < trx.id → trx.id ∉ sys.active →
        Descr_run (trx_reserve_descriptor sys trx) (insert trx.id S)
  | release {sys : trx_sys_t} {S : Finset Nat} (trx : trx_t) :
      Descr_run sys S → Descr_run (trx_release_descriptor sys trx) (S.erase trx.id)

/-- Every run keeps `Descr_ok` and the used cells equal, as a set, to the ids reserved and
    not yet released; the induction is on the run, one step lemma a call. -/
theorem Descr_run.invariant {sys : trx_sys_t} {S : Finset Nat} (hrun : Descr_run sys S) :
    Descr_ok sys ∧ ∀ x, x ∈ sys.active ↔ x ∈ S := by
  induction hrun with
  | init max_trx_id =>
    refine ⟨Descr_ok.init max_trx_id, fun x => ?_⟩
    simp [trx_sys_t.active, trx_sys_init]
  | reserve trx _ hid hnew ih =>
    obtain ⟨hok, hmem⟩ := Descr_ok.reserve ih.1 hid hnew
    refine ⟨hok, fun x => ?_⟩
    rw [hmem, ih.2, Finset.mem_insert]
  | release trx _ ih =>
    obtain ⟨hok, hactive⟩ := Descr_ok.release ih.1 trx
    refine ⟨hok, fun x => ?_⟩
    rw [hactive, ih.1.sorted.nodup.mem_erase_iff, ih.2, Finset.mem_erase]

theorem descriptors_sorted_set {sys : trx_sys_t} {S : Finset Nat} (hrun : Descr_run sys S) :
    sys.active.Pairwise (· < ·) ∧ (∀ x, x ∈ sys.active ↔ x ∈ S) ∧
      sys.descr_n_used ≤ sys.descr_n_max := by
  obtain ⟨hok, hmem⟩ := hrun.invariant
  exact ⟨hok.sorted, hmem, hok.used_le⟩

/-- Two reservations, the second out of order, and a release. -/
theorem descriptors_sorted_set_three_calls :
    ((trx_release_descriptor (trx_reserve_descriptor (trx_reserve_descriptor (trx_sys_init 9)
      ⟨7, 0⟩) ⟨4, 0⟩) ⟨7, 0⟩).active.Pairwise (· < ·) ∧
      (∀ x, x ∈ (trx_release_descriptor (trx_reserve_descriptor (trx_reserve_descriptor
        (trx_sys_init 9) ⟨7, 0⟩) ⟨4, 0⟩) ⟨7, 0⟩).active ↔ x ∈ ({4} : Finset Nat))) :=
  have hrun := Descr_run.release ⟨7, 0⟩ (Descr_run.reserve ⟨4, 0⟩
    (Descr_run.reserve ⟨7, 0⟩ (Descr_run.init 9) (by decide) (by decide)) (by decide) (by decide))
  ⟨(descriptors_sorted_set hrun).1, fun x => ((descriptors_sorted_set hrun).2.1 x).trans (by
    simp only [Finset.mem_erase, Finset.mem_insert, Finset.mem_singleton, Finset.notMem_empty, or_false]
    omega)⟩

/-! ## Read views see a snapshot -/

/-- The second copy of `read_view_open_now_low`, of the cells above slot `i`, is the used
    cells after `i`, also when there are none. -/
theorem read_view_open_now_low.copy_above (d : List Nat) (n i : Nat) :
    (if i + 1 < n then (d.drop (i + 1)).take (n - i - 1) else []) = (d.take n).drop (i + 1) := by
  split_ifs with h
  · rw [List.drop_take, Nat.sub_sub]
  · rw [List.drop_eq_nil_of_le (by simp only [List.length_take]; omega)]

/-- The view's copy is the used cells without the creator's id. -/
theorem read_view_open_now_low_descriptors {sys : trx_sys_t} {cr_trx_id : Nat}
    (hsorted : sys.active.Pairwise (· < ·)) (hpos : ∀ x ∈ sys.active, 0 < x)
    (hn : sys.descr_n_used ≤ sys.descriptors.length) :
    (read_view_open_now_low sys cr_trx_id).descriptors = sys.active.erase cr_trx_id ∧
      (read_view_open_now_low sys cr_trx_id).n_descr = (sys.active.erase cr_trx_id).length := by
  have hA : sys.active.length = sys.descr_n_used := by
    simp only [trx_sys_t.active, List.length_take]; omega
  unfold read_view_open_now_low
  cases hf : trx_find_descriptor sys.descriptors sys.descr_n_used cr_trx_id with
  | none =>
    -- the creator has no slot: the whole array is copied
    have habs : cr_trx_id ∉ sys.active := by
      rcases (trx_find_descriptor_eq_none_iff hsorted hn).mp hf with rfl | h0
      · exact fun hm => absurd (hpos _ hm) (lt_irrefl 0)
      · exact h0
    dsimp only
    rw [read_view_open_now_low.copy_above, List.drop_eq_nil_of_le (by simp only [List.length_take]; omega),
      List.append_nil, List.erase_of_not_mem habs, hA]
    exact ⟨rfl, rfl⟩
  | some i =>
    -- the creator's slot `i`: the copy skips it
    obtain ⟨hi, hid⟩ := trx_find_descriptor_eq_some hf
    have hmem : cr_trx_id ∈ sys.active := by
      rw [trx_sys_t.active, mem_take_iff_getD (by omega)]
      exact ⟨i, hi, hid⟩
    dsimp only
    rw [read_view_open_now_low.copy_above, List.length_erase_of_mem hmem, hA, ← hid, ← active_getD hi,
      ← take_append_drop_succ_eq_erase hsorted.nodup (by omega), trx_sys_t.active, List.take_take,
      min_eq_left (by omega)]
    exact ⟨rfl, rfl⟩

/-- The least id of a strictly ascending list is its first. -/
theorem getD_zero_le_of_pairwise {L : List Nat} (hL : L.Pairwise (· < ·)) {x : Nat} (hx : x ∈ L) :
    L.getD 0 0 ≤ x := by
  cases L with
  | nil => exact absurd hx List.not_mem_nil
  | cons a l =>
    rcases List.mem_cons.mp hx with rfl | hx
    · exact le_refl _
    · exact le_of_lt (List.rel_of_pairwise_cons hL hx)

/-- `up_limit_id` of a new view is at most every id its copy holds, and at most
    `max_trx_id`. -/
theorem read_view_open_now_low_up_limit_id {sys : trx_sys_t} {c : Nat}
    (hsorted : sys.active.Pairwise (· < ·)) (hpos : ∀ x ∈ sys.active, 0 < x)
    (hn : sys.descr_n_used ≤ sys.descriptors.length) (hmax : ∀ x ∈ sys.active, x < sys.max_trx_id) :
    (∀ x ∈ (read_view_open_now_low sys c).descriptors, (read_view_open_now_low sys c).up_limit_id ≤ x) ∧
      (read_view_open_now_low sys c).up_limit_id ≤ (read_view_open_now_low sys c).low_limit_id := by
  obtain ⟨hdesc, hlen⟩ := @read_view_open_now_low_descriptors sys c hsorted hpos hn
  have hsorted' : (sys.active.erase c).Pairwise (· < ·) := hsorted.sublist List.erase_sublist
  -- the first id copied, or `max_trx_id` when none is
  have hup : (read_view_open_now_low sys c).up_limit_id =
      if (sys.active.erase c).length > 0 then (sys.active.erase c).getD 0 0 else sys.max_trx_id := by
    rw [← hlen, ← hdesc]
    rfl
  rw [hdesc, hup]
  constructor
  · intro x hx
    rw [if_pos (List.length_pos_of_mem hx)]
    exact getD_zero_le_of_pairwise hsorted' hx
  · show _ ≤ sys.max_trx_id
    split_ifs with hne
    · obtain ⟨x, hx⟩ := List.exists_mem_of_length_pos hne
      exact (getD_zero_le_of_pairwise hsorted' hx).trans (le_of_lt (hmax x (List.erase_sublist.subset hx)))
    · exact le_refl _

/-- **Visibility** on a view whose copy is strictly ascending and bounded below by
    `up_limit_id`: a positive id is seen exactly when it is the creator's, or below
    `low_limit_id` and not in the copy. The two short-cuts agree with the search. -/
theorem read_view_sees_trx_id_iff {view : read_view_t} (hsorted : view.descriptors.Pairwise (· < ·))
    (hlen : view.n_descr = view.descriptors.length)
    (hup_min : ∀ x ∈ view.descriptors, view.up_limit_id ≤ x) (hup_low : view.up_limit_id ≤ view.low_limit_id)
    {t : Nat} (ht : 0 < t) :
    read_view_sees_trx_id view t = true ↔
      t = view.creator_trx_id ∨ (t < view.low_limit_id ∧ t ∉ view.descriptors) := by
  unfold read_view_sees_trx_id
  split_ifs with hseen hnew
  · -- below every id the view holds, or the creator's own
    simp only [true_iff]
    rcases hseen with hlt | heq
    · refine Or.inr ⟨lt_of_lt_of_le hlt hup_low, fun hm => ?_⟩
      have := hup_min t hm
      omega
    · exact Or.inl heq
  · -- started after the view was opened
    simp only [false_iff, not_or]
    exact ⟨fun h => hseen (Or.inr h), fun ⟨hlt, _⟩ => by omega⟩
  · -- in between: seen exactly when the copy misses it
    rw [Option.isNone_iff_eq_none, hlen,
      trx_find_descriptor_eq_none_iff (by rwa [List.take_length]) (le_refl _), List.take_length]
    have hne : t ≠ view.creator_trx_id := fun h => hseen (Or.inr h)
    constructor
    · rintro (h0 | hnot)
      · omega
      · exact Or.inr ⟨by omega, hnot⟩
    · rintro (heq | ⟨_, hnot⟩)
      · exact absurd heq hne
      · exact Or.inr hnot

theorem read_view_snapshot (sys : trx_sys_t) (c : Nat)
    (hsorted : sys.active.Pairwise (· < ·)) (hpos : ∀ x ∈ sys.active, 0 < x)
    (hn : sys.descr_n_used ≤ sys.descriptors.length) (hmax : ∀ x ∈ sys.active, x < sys.max_trx_id) :
    (read_view_open_now_low sys c).descriptors.Pairwise (· < ·) ∧
      (read_view_open_now_low sys c).descriptors = sys.active.erase c ∧
      (read_view_open_now_low sys c).n_descr = (read_view_open_now_low sys c).descriptors.length ∧
      (read_view_open_now_low sys c).up_limit_id ≤ (read_view_open_now_low sys c).low_limit_id ∧
      ∀ t, 0 < t → (read_view_sees_trx_id (read_view_open_now_low sys c) t = true ↔
        t = c ∨ (t < sys.max_trx_id ∧ ¬ (t ∈ sys.active ∧ t ≠ c))) := by
  obtain ⟨hdesc, hlen⟩ := @read_view_open_now_low_descriptors sys c hsorted hpos hn
  have hsorted' : (read_view_open_now_low sys c).descriptors.Pairwise (· < ·) :=
    hdesc ▸ hsorted.sublist List.erase_sublist
  have hlen' := hlen.trans (congrArg List.length hdesc.symm)
  obtain ⟨hup_min, hup_low⟩ := read_view_open_now_low_up_limit_id (c := c) hsorted hpos hn hmax
  refine ⟨hsorted', hdesc, hlen', hup_low, fun t ht => ?_⟩
  rw [read_view_sees_trx_id_iff hsorted' hlen' hup_min hup_low ht, hdesc, hsorted.nodup.mem_erase_iff,
    and_comm (a := t ≠ c)]
  rfl

/-- The view of transaction 5 among 3, 5 and 8 holds 3 and 8. -/
theorem read_view_snapshot_creator_five :
    (read_view_open_now_low ⟨9, [3, 5, 8, 0], 4, 3, []⟩ 5).descriptors = [3, 8] :=
  (read_view_snapshot ⟨9, [3, 5, 8, 0], 4, 3, []⟩ 5 (by decide) (by decide) (by decide)
    (by decide)).2.1

end AliSql
