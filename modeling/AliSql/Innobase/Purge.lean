import Mathlib
import AliSql.Innobase.Trx

/-!
# `read0read.cc`: the view list and the purge view

`trx_sys->view_list` holds the open read views, the one with the largest `low_limit_no`
at its head (`read_view_add`). A view that a read-only transaction closes may stay on the
list marked `cached`, for the transaction to take back as long as no id has been handed
out since (`read_view_open_now`). Purge copies the last view on the list that is not
cached, adds that view's creator to the copy's descriptors, and removes the undo records
this copy sees as committed (`read_view_purge_open`); it is safe when no open view sees
less than the copy.

The steps that change what the views read are modelled each as one section under
`trx_sys->mutex`: the start of a read-write transaction (`trx_start_low`), its
serialisation number (`trx_serialisation_number_get`), its commit or rollback releasing
the descriptor (`trx_release_descriptor`), and opening, closing and caching views. The
list holds the views' values, head first, each with its `cached` flag; a view is named
by its place on the list.

What is proved over every run (`View_run`) from `trx_sys_init`:

* the transactions (`Sys_inv`, `Sys_grows`): `trx_serial_list` ascends by `no` below
  `max_trx_id`, so the `low_limit_no` a view opened now would get never decreases, and an
  id that becomes active is a new one;
* each view on the list is well formed and remembers what it saw (`View_wf`): an id below
  its `low_limit_id`, not its creator and not in its copy, is never active again;
* a view later on the list is older (`View_older`): its `low_limit_no` is not larger, and
  what it sees, its creator left out, every view before it sees;
* so the purge view sees nothing that an open view does not, and its `low_limit_no` is at
  most theirs (`read_view_purge_open_safe`).
-/

set_option autoImplicit false

namespace AliSql

/-! ## 1. Transactions under `trx_sys->mutex` -/

section trx

/-- `TRX_ID_MAX` (`trx0types.h`): `IB_ID_MAX`, the `no` of a transaction not serialised. -/
def TRX_ID_MAX : Nat := 2 ^ 64 - 1

/-- `trx_sys_get_new_trx_id()`: `max_trx_id`, counted up. (Every
    `TRX_SYS_TRX_ID_WRITE_MARGIN` ids it is also written to the system header, on disk.) -/
def trx_sys_get_new_trx_id (sys : trx_sys_t) : Nat × trx_sys_t :=
  (sys.max_trx_id, { sys with max_trx_id := sys.max_trx_id + 1 })

/-- The part of `trx_start_low` under `trx_sys->mutex` for a read-write transaction: a new
    id and its descriptor. `no` was set to `TRX_ID_MAX` before. -/
def trx_start_rw (sys : trx_sys_t) : trx_t × trx_sys_t :=
  let (id, sys) := trx_sys_get_new_trx_id sys
  let trx : trx_t := ⟨id, TRX_ID_MAX⟩
  (trx, trx_reserve_descriptor sys trx)

/-- The part of `trx_serialisation_number_get(trx)` under `trx_sys->mutex`: a new number;
    the transaction goes to the end of `trx_serial_list` unless it is on it
    (`in_trx_serial_list`), where its node takes the number. -/
def trx_serialisation_number_get (sys : trx_sys_t) (trx : trx_t) : trx_t × trx_sys_t :=
  let (no, sys) := trx_sys_get_new_trx_id sys
  let trx' := { trx with no := no }
  if sys.trx_serial_list.any (·.id == trx.id) then
    (trx', { sys with
      trx_serial_list := sys.trx_serial_list.map fun t => if t.id = trx.id then trx' else t })
  else (trx', { sys with trx_serial_list := sys.trx_serial_list ++ [trx'] })

/-- The `low_limit_no` of a view opened now: `max_trx_id`, or the `no` of the first
    transaction of `trx_serial_list` if it is smaller. -/
def trx_sys_t.low_limit_no (sys : trx_sys_t) : Nat :=
  match sys.trx_serial_list.head? with
  | some trx => if trx.no < sys.max_trx_id then trx.no else sys.max_trx_id
  | none => sys.max_trx_id

@[simp] theorem read_view_open_now_low_low_limit_no (sys : trx_sys_t) (c : Nat) :
    (read_view_open_now_low sys c).low_limit_no = sys.low_limit_no := rfl

@[simp] theorem read_view_open_now_low_low_limit_id (sys : trx_sys_t) (c : Nat) :
    (read_view_open_now_low sys c).low_limit_id = sys.max_trx_id := rfl

@[simp] theorem read_view_open_now_low_creator (sys : trx_sys_t) (c : Nat) :
    (read_view_open_now_low sys c).creator_trx_id = c := rfl

@[simp] theorem trx_reserve_descriptor_max_trx_id (sys : trx_sys_t) (trx : trx_t) :
    (trx_reserve_descriptor sys trx).max_trx_id = sys.max_trx_id := rfl

@[simp] theorem trx_reserve_descriptor_serial (sys : trx_sys_t) (trx : trx_t) :
    (trx_reserve_descriptor sys trx).trx_serial_list = sys.trx_serial_list := rfl

@[simp] theorem trx_release_descriptor_max_trx_id (sys : trx_sys_t) (trx : trx_t) :
    (trx_release_descriptor sys trx).max_trx_id = sys.max_trx_id := by
  unfold trx_release_descriptor
  dsimp only
  split <;> rfl

@[simp] theorem trx_release_descriptor_serial (sys : trx_sys_t) (trx : trx_t) :
    (trx_release_descriptor sys trx).trx_serial_list = sys.trx_serial_list.erase trx := by
  unfold trx_release_descriptor
  dsimp only
  split <;> rfl

/-- A transaction not yet on `trx_serial_list` goes to its end with the number
    `max_trx_id`. -/
theorem trx_serialisation_number_get_of_not_mem {sys : trx_sys_t} {trx : trx_t}
    (hnew : ∀ t ∈ sys.trx_serial_list, t.id ≠ trx.id) :
    (trx_serialisation_number_get sys trx).2 = { sys with
      max_trx_id := sys.max_trx_id + 1
      trx_serial_list := sys.trx_serial_list ++ [{ trx with no := sys.max_trx_id }] } := by
  have hany : sys.trx_serial_list.any (·.id == trx.id) = false := by
    rw [List.any_eq_false]
    intro t ht
    simpa using hnew t ht
  simp only [trx_serialisation_number_get, trx_sys_get_new_trx_id, hany]
  rfl

end trx

/-! ## 2. What the transactions keep -/

section sys

/-- The transactions as every run keeps them: the descriptor array of `Descr_ok`, the
    active ids below `max_trx_id`, and `trx_serial_list` ascending by `no` below it. -/
structure Sys_inv (sys : trx_sys_t) : Prop where
  descr : Descr_ok sys
  max_pos : 0 < sys.max_trx_id
  active_lt : ∀ x ∈ sys.active, x < sys.max_trx_id
  serial_sorted : (sys.trx_serial_list.map trx_t.no).Pairwise (· < ·)
  serial_lt : ∀ trx ∈ sys.trx_serial_list, trx.no < sys.max_trx_id

/-- What a step of the transactions does to what the views read: ids only go up, the
    `low_limit_no` of a view opened now never goes down, and an id that becomes active is
    a new one. -/
structure Sys_grows (sys sys' : trx_sys_t) : Prop where
  max_le : sys.max_trx_id ≤ sys'.max_trx_id
  low_limit_no_le : sys.low_limit_no ≤ sys'.low_limit_no
  active_new : ∀ x ∈ sys'.active, x ∈ sys.active ∨ sys.max_trx_id ≤ x

/-- `Descr_ok` reads the descriptor array only. -/
theorem Descr_ok.of_eq {sys sys' : trx_sys_t} (h : Descr_ok sys)
    (hd : sys'.descriptors = sys.descriptors) (hm : sys'.descr_n_max = sys.descr_n_max)
    (hu : sys'.descr_n_used = sys.descr_n_used) : Descr_ok sys' := by
  have ha : sys'.active = sys.active := by rw [trx_sys_t.active, trx_sys_t.active, hd, hu]
  exact ⟨by rw [hd, hm]; exact h.length, by rw [hm, hu]; exact h.used_le,
    by rw [hm]; exact h.max_pos, ha ▸ h.sorted, ha ▸ h.pos⟩

/-- With the same `trx_serial_list`, a larger `max_trx_id` gives a `low_limit_no` at
    least as large. -/
theorem trx_sys_t.low_limit_no_mono {sys sys' : trx_sys_t}
    (hs : sys'.trx_serial_list = sys.trx_serial_list) (hm : sys.max_trx_id ≤ sys'.max_trx_id) :
    sys.low_limit_no ≤ sys'.low_limit_no := by
  unfold trx_sys_t.low_limit_no
  rw [hs]
  split
  · split_ifs <;> omega
  · exact hm

theorem Sys_inv.init {max_trx_id : Nat} (hmax : 0 < max_trx_id) :
    Sys_inv (trx_sys_init max_trx_id) where
  descr := Descr_ok.init max_trx_id
  max_pos := hmax
  active_lt := fun x hx => by simp [trx_sys_t.active, trx_sys_init] at hx
  serial_sorted := List.Pairwise.nil
  serial_lt := fun _ h => absurd h List.not_mem_nil

/-- **A read-write start** hands out `max_trx_id` and reserves its descriptor. -/
theorem Sys_inv.start {sys : trx_sys_t} (h : Sys_inv sys) :
    Sys_inv (trx_start_rw sys).2 ∧ Sys_grows sys (trx_start_rw sys).2 := by
  -- the table with `max_trx_id` counted up, before the reservation
  set sys₁ : trx_sys_t := { sys with max_trx_id := sys.max_trx_id + 1 } with hsys₁
  have hok₁ : Descr_ok sys₁ := h.descr.of_eq rfl rfl rfl
  have hid : 0 < (⟨sys.max_trx_id, TRX_ID_MAX⟩ : trx_t).id := h.max_pos
  have hnew : (⟨sys.max_trx_id, TRX_ID_MAX⟩ : trx_t).id ∉ sys₁.active := fun hm =>
    lt_irrefl _ (h.active_lt _ hm)
  obtain ⟨hok, hmem⟩ := Descr_ok.reserve hok₁ hid hnew
  have hactive : ∀ x, x ∈ (trx_start_rw sys).2.active ↔ x = sys.max_trx_id ∨ x ∈ sys.active :=
    hmem
  have hmax : (trx_start_rw sys).2.max_trx_id = sys.max_trx_id + 1 := rfl
  have hserial : (trx_start_rw sys).2.trx_serial_list = sys.trx_serial_list := rfl
  refine ⟨⟨hok, by omega, fun x hx => ?_, ?_, fun t ht => ?_⟩, ⟨by omega, ?_, fun x hx => ?_⟩⟩
  · rw [hmax]
    rcases (hactive x).1 hx with rfl | hx
    · omega
    · exact Nat.lt_succ_of_lt (h.active_lt x hx)
  · rw [hserial]
    exact h.serial_sorted
  · rw [hserial] at ht
    rw [hmax]
    exact Nat.lt_succ_of_lt (h.serial_lt t ht)
  · exact trx_sys_t.low_limit_no_mono hserial (by omega)
  · rcases (hactive x).1 hx with rfl | hx
    · exact Or.inr (le_refl _)
    · exact Or.inl hx

/-- **A serialisation number** for a transaction not yet on `trx_serial_list`. -/
theorem Sys_inv.serialise {sys : trx_sys_t} (h : Sys_inv sys) {trx : trx_t}
    (hnew : ∀ t ∈ sys.trx_serial_list, t.id ≠ trx.id) :
    Sys_inv (trx_serialisation_number_get sys trx).2 ∧
      Sys_grows sys (trx_serialisation_number_get sys trx).2 := by
  rw [trx_serialisation_number_get_of_not_mem hnew]
  have hlow : sys.low_limit_no ≤ ({ sys with
      max_trx_id := sys.max_trx_id + 1
      trx_serial_list := sys.trx_serial_list ++ [{ trx with no := sys.max_trx_id }] } :
        trx_sys_t).low_limit_no := by
    unfold trx_sys_t.low_limit_no
    cases hs : sys.trx_serial_list with
    | nil => simp
    | cons t rest =>
      have := h.serial_lt t (by simp [hs])
      simp only [List.cons_append, List.head?_cons]
      split_ifs <;> omega
  refine ⟨⟨h.descr.of_eq rfl rfl rfl, by simp, fun x hx => Nat.lt_succ_of_lt (h.active_lt x hx), ?_, ?_⟩,
    ⟨by simp, hlow, fun x hx => Or.inl hx⟩⟩
  · -- the new number is above every number on the list
    rw [List.map_append, List.pairwise_append]
    refine ⟨h.serial_sorted, List.pairwise_singleton _ _, fun a ha b hb => ?_⟩
    obtain ⟨t, ht, rfl⟩ := List.mem_map.1 ha
    rw [List.map_singleton, List.mem_singleton] at hb
    rw [hb]
    exact h.serial_lt t ht
  · intro t ht
    rcases List.mem_append.1 ht with ht | ht
    · exact Nat.lt_succ_of_lt (h.serial_lt t ht)
    · rw [List.mem_singleton.1 ht]
      exact Nat.lt_succ_self _

/-- Taking a transaction off a list ascending by `no` leaves a first `no` at least as large,
    or none. -/
theorem low_limit_no_erase {sys : trx_sys_t} (h : Sys_inv sys) (trx : trx_t) :
    sys.low_limit_no ≤ ({ sys with trx_serial_list := sys.trx_serial_list.erase trx } :
      trx_sys_t).low_limit_no := by
  unfold trx_sys_t.low_limit_no
  cases hs : sys.trx_serial_list with
  | nil => simp
  | cons t rest =>
    have hsorted := h.serial_sorted
    rw [hs, List.map_cons, List.pairwise_cons] at hsorted
    rw [List.erase_cons]
    split_ifs with ht
    · -- the first transaction leaves: the next one has a larger `no`, or `max_trx_id` is read
      cases rest with
      | nil => simp only [List.head?_cons, List.head?_nil]; split_ifs <;> omega
      | cons u rest' =>
        have hu := hsorted.1 u.no (by simp)
        simp only [List.head?_cons]
        split_ifs <;> omega
    · simp only [List.head?_cons]
      exact le_refl _

/-- **A release** at a commit or a rollback: the descriptor and the `trx_serial_list` node
    go. -/
theorem Sys_inv.release {sys : trx_sys_t} (h : Sys_inv sys) (trx : trx_t) :
    Sys_inv (trx_release_descriptor sys trx) ∧ Sys_grows sys (trx_release_descriptor sys trx) := by
  obtain ⟨hok, hactive⟩ := Descr_ok.release h.descr trx
  have hsub : ∀ x ∈ (trx_release_descriptor sys trx).active, x ∈ sys.active := fun x hx => by
    rw [hactive] at hx
    exact List.mem_of_mem_erase hx
  have hlow : sys.low_limit_no ≤ (trx_release_descriptor sys trx).low_limit_no := by
    have hl := low_limit_no_erase h trx
    unfold trx_sys_t.low_limit_no at hl ⊢
    rwa [trx_release_descriptor_serial, trx_release_descriptor_max_trx_id]
  refine ⟨⟨hok, ?_, fun x hx => ?_, ?_, fun t ht => ?_⟩, ⟨by simp, hlow, fun x hx => Or.inl (hsub x hx)⟩⟩
  · simpa using h.max_pos
  · simpa using h.active_lt x (hsub x hx)
  · rw [trx_release_descriptor_serial]
    exact h.serial_sorted.sublist ((List.erase_sublist).map _)
  · rw [trx_release_descriptor_serial] at ht
    simpa using h.serial_lt t (List.mem_of_mem_erase ht)

end sys

/-! ## 3. The views on the list -/

section views

/-- What a view on the list keeps: its copy ascends and holds neither its creator nor an id
    below `up_limit_id`, its limits are those of a moment that has passed, and an id below
    its `low_limit_id` that it sees as committed is not active any more. -/
structure View_wf (sys : trx_sys_t) (view : read_view_t) : Prop where
  sorted : view.descriptors.Pairwise (· < ·)
  n_descr : view.n_descr = view.descriptors.length
  up_min : ∀ x ∈ view.descriptors, view.up_limit_id ≤ x
  up_low : view.up_limit_id ≤ view.low_limit_id
  creator : view.creator_trx_id ∉ view.descriptors
  low_id : view.low_limit_id ≤ sys.max_trx_id
  low_no : view.low_limit_no ≤ sys.low_limit_no
  settled : ∀ t, t < view.low_limit_id → t ≠ view.creator_trx_id → t ∉ view.descriptors →
    t ∉ sys.active

variable {sys sys' : trx_sys_t} {view : read_view_t}

/-- Visibility on a well-formed view (`read_view_sees_trx_id_iff`). -/
theorem View_wf.sees_iff (h : View_wf sys view) {t : Nat} (ht : 0 < t) :
    read_view_sees_trx_id view t = true ↔
      t = view.creator_trx_id ∨ (t < view.low_limit_id ∧ t ∉ view.descriptors) :=
  read_view_sees_trx_id_iff h.sorted h.n_descr h.up_min h.up_low ht

/-- A view stays well formed over a step of the transactions. -/
theorem View_wf.mono (h : View_wf sys view) (hg : Sys_grows sys sys') : View_wf sys' view where
  sorted := h.sorted
  n_descr := h.n_descr
  up_min := h.up_min
  up_low := h.up_low
  creator := h.creator
  low_id := h.low_id.trans hg.max_le
  low_no := h.low_no.trans hg.low_limit_no_le
  settled t hlt hc hd hact := by
    rcases hg.active_new t hact with hold | hge
    · exact h.settled t hlt hc hd hold
    · have := h.low_id
      omega

/-- The view `read_view_open_now_low` opens, for any creator. -/
theorem View_wf.open_now {c : Nat} (hs : Sys_inv sys) :
    View_wf sys (read_view_open_now_low sys c) := by
  have hn : sys.descr_n_used ≤ sys.descriptors.length := hs.descr.length ▸ hs.descr.used_le
  obtain ⟨hsorted, hdesc, hlen, hup_low, -⟩ :=
    read_view_snapshot sys c hs.descr.sorted hs.descr.pos hn hs.active_lt
  have hup := (read_view_open_now_low_up_limit_id (c := c) hs.descr.sorted hs.descr.pos hn
    hs.active_lt).1
  have hcreator : c ∉ sys.active.erase c := hs.descr.sorted.nodup.not_mem_erase
  refine ⟨hsorted, hlen, hup, hup_low, by rw [hdesc]; exact hcreator, le_refl _, le_refl _,
    fun t _ htc htd hact => ?_⟩
  rw [hdesc] at htd
  exact htd ((List.mem_erase_of_ne htc).2 hact)

/-- `u`, later on the list than `v`, is older: its `low_limit_no` is not larger, and every
    id it sees, its creator left out, `v` sees. -/
def View_older (u v : read_view_t) : Prop :=
  u.low_limit_no ≤ v.low_limit_no ∧
    ∀ t, 0 < t → read_view_sees_trx_id u t = true → t ≠ u.creator_trx_id →
      read_view_sees_trx_id v t = true

/-- Every view on the list is older than the one opened now. -/
theorem View_older.open_now {u : read_view_t} {c : Nat} (hs : Sys_inv sys) (hu : View_wf sys u) :
    View_older u (read_view_open_now_low sys c) := by
  have hN := View_wf.open_now (c := c) hs
  have hn : sys.descr_n_used ≤ sys.descriptors.length := hs.descr.length ▸ hs.descr.used_le
  have hdesc := (read_view_snapshot sys c hs.descr.sorted hs.descr.pos hn hs.active_lt).2.1
  refine ⟨hu.low_no, fun t ht hsees hne => ?_⟩
  -- what `u` saw committed, other than its creator, is not active now
  obtain ⟨hlt, hnot⟩ := ((hu.sees_iff ht).1 hsees).resolve_left hne
  have hinactive := hu.settled t hlt hne hnot
  refine (hN.sees_iff ht).2 (Or.inr ⟨?_, ?_⟩)
  · simpa using lt_of_lt_of_le hlt hu.low_id
  · rw [hdesc]
    exact fun hm => hinactive (List.mem_of_mem_erase hm)

end views

/-! ## 4. The view list -/

section list

/-- A view on `trx_sys->view_list`: its fields, and `cached`. -/
structure listed_view where
  view : read_view_t
  cached : Bool

/-- `trx_sys` with its `view_list`, head first. -/
structure view_sys where
  sys : trx_sys_t
  view_list : List listed_view

/-- `read_view_add(view)`: the view goes before the first one whose `low_limit_no` is not
    larger than its own. -/
def read_view_add (view_list : List listed_view) (view : read_view_t) : List listed_view :=
  let prev := view_list.takeWhile fun elem => decide (view.low_limit_no < elem.view.low_limit_no)
  prev ++ ⟨view, false⟩ :: view_list.drop prev.length

/-- `read_view_remove(view, own_mutex)` of the view at place `i`: a view with no
    descriptors, removed by a caller that does not hold `trx_sys->mutex`, is marked
    `cached` and stays on the list if `srv_read_view_cache` is set; any other is taken off. -/
def read_view_remove (srv_read_view_cache : Bool) (s : view_sys) (i : Nat) (own_mutex : Bool) :
    view_sys :=
  match s.view_list[i]? with
  | none => s
  | some v =>
    if own_mutex = false ∧ srv_read_view_cache = true ∧ v.view.n_descr = 0 then
      { s with view_list := s.view_list.set i { v with cached := true } }
    else { s with view_list := s.view_list.eraseIdx i }

/-- `read_view_open_now_low(cr_trx_id, view, false)`, for the view `view` holds: the one at
    place `i` of the list when `pos = some i`, which is taken off first if cached, or one
    off the list; the new view is added. -/
def read_view_open_now_low_add (s : view_sys) (cr_trx_id : Nat) (pos : Option Nat) :
    view_sys :=
  let s := match pos with
    | some i => match s.view_list[i]? with
      | some v => if v.cached = true then { s with view_list := s.view_list.eraseIdx i } else s
      | none => s
    | none => s
  { s with view_list := read_view_add s.view_list (read_view_open_now_low s.sys cr_trx_id) }

/-- `read_view_open_now(cr_trx_id, view)`: a cached view of a read-only transaction, opened
    when it had no descriptors, is taken back as it is while `max_trx_id` has not moved;
    otherwise a new view is opened. -/
def read_view_open_now (s : view_sys) (cr_trx_id : Nat) (pos : Option Nat) : view_sys :=
  match pos with
  | some i => match s.view_list[i]? with
    | some v =>
      if v.cached = true ∧ cr_trx_id = 0 ∧ v.view.n_descr = 0 ∧
          v.view.low_limit_id = s.sys.max_trx_id then
        { s with view_list := s.view_list.set i { v with cached := false } }
      else read_view_open_now_low_add s cr_trx_id pos
    | none => read_view_open_now_low_add s cr_trx_id pos
  | none => read_view_open_now_low_add s cr_trx_id pos

/-- A new view goes to the head of a list where no `low_limit_no` is larger than its own. -/
theorem read_view_add_eq_cons {L : List listed_view} {view : read_view_t}
    (h : ∀ e ∈ L, e.view.low_limit_no ≤ view.low_limit_no) :
    read_view_add L view = ⟨view, false⟩ :: L := by
  cases L with
  | nil => rfl
  | cons e L =>
    have he := h e List.mem_cons_self
    simp [read_view_add, not_lt.2 he]

/-- Marking the view at place `i` leaves the views of the list as they were. -/
theorem map_view_set_of_getElem? {L : List listed_view} {i : Nat} {v : listed_view}
    (hv : L[i]? = some v) (b : Bool) :
    (L.set i { v with cached := b }).map listed_view.view = L.map listed_view.view := by
  obtain ⟨hi, rfl⟩ := List.getElem?_eq_some_iff.1 hv
  rw [List.map_set]
  have hi' : i < (L.map listed_view.view).length := by simpa using hi
  have h := List.set_getElem_self hi'
  rw [List.getElem_map] at h
  exact h

/-- `read_view_remove` keeps some of the views, in order. -/
theorem read_view_remove_sublist (srv : Bool) (s : view_sys) (i : Nat) (own_mutex : Bool) :
    (read_view_remove srv s i own_mutex).sys = s.sys ∧
      ((read_view_remove srv s i own_mutex).view_list.map listed_view.view).Sublist
        (s.view_list.map listed_view.view) := by
  unfold read_view_remove
  split
  · exact ⟨rfl, List.Sublist.refl _⟩
  · rename_i v hv
    split_ifs
    · exact ⟨rfl, (map_view_set_of_getElem? hv true) ▸ List.Sublist.refl _⟩
    · exact ⟨rfl, (List.eraseIdx_sublist _ i).map _⟩

/-- **What `read_view_open_now` does to the list**: it takes a cached view back, leaving the
    views as they were, or it puts the view opened now at the head of a part of the list. -/
theorem read_view_open_now_cases (s : view_sys) (c : Nat) (pos : Option Nat)
    (hlow : ∀ e ∈ s.view_list, e.view.low_limit_no ≤ s.sys.low_limit_no) :
    (read_view_open_now s c pos).sys = s.sys ∧
      ((read_view_open_now s c pos).view_list.map listed_view.view =
          s.view_list.map listed_view.view ∨
        ∃ L, (read_view_open_now s c pos).view_list = ⟨read_view_open_now_low s.sys c, false⟩ :: L ∧
          (L.map listed_view.view).Sublist (s.view_list.map listed_view.view)) := by
  -- the branch that opens a view, after taking the cached one off or not
  have hadd : ∀ L : List listed_view, (L.map listed_view.view).Sublist (s.view_list.map listed_view.view) →
      (read_view_add L (read_view_open_now_low s.sys c)) =
        ⟨read_view_open_now_low s.sys c, false⟩ :: L := fun L hL =>
    read_view_add_eq_cons fun e he => by
      obtain ⟨w, hw, hwe⟩ := List.mem_map.1 (hL.subset (List.mem_map_of_mem he))
      rw [← hwe]
      simpa using hlow w hw
  have hopen : (read_view_open_now_low_add s c pos).sys = s.sys ∧
      ∃ L, (read_view_open_now_low_add s c pos).view_list =
        ⟨read_view_open_now_low s.sys c, false⟩ :: L ∧
        (L.map listed_view.view).Sublist (s.view_list.map listed_view.view) := by
    unfold read_view_open_now_low_add
    split
    · split
      · split_ifs
        · exact ⟨rfl, _, hadd _ ((List.eraseIdx_sublist _ _).map _), (List.eraseIdx_sublist _ _).map _⟩
        · exact ⟨rfl, _, hadd _ (List.Sublist.refl _), List.Sublist.refl _⟩
      · exact ⟨rfl, _, hadd _ (List.Sublist.refl _), List.Sublist.refl _⟩
    · exact ⟨rfl, _, hadd _ (List.Sublist.refl _), List.Sublist.refl _⟩
  unfold read_view_open_now
  split
  · split
    · rename_i v hv
      split_ifs
      · exact ⟨rfl, Or.inl (map_view_set_of_getElem? hv false)⟩
      · exact ⟨hopen.1, Or.inr hopen.2⟩
    · exact ⟨hopen.1, Or.inr hopen.2⟩
  · exact ⟨hopen.1, Or.inr hopen.2⟩

end list

/-! ## 5. The purge view -/

section purge

/-- The loop of `read_view_purge_open` that copies the oldest view's descriptors with its
    creator put in: cell `i` of the copy is cell `i - insert_done` of the oldest view's, or
    the creator at the first cell whose id is larger; `k` cells are left before the last. -/
def read_view_purge_open.copy (descriptors : List Nat) (creator_trx_id : Nat) :
    Nat → Nat → Bool → List Nat
  | 0, i, insert_done =>
    [if insert_done = true then descriptors.getD (i - 1) 0 else creator_trx_id]
  | k + 1, i, insert_done =>
    let id := descriptors.getD (i - if insert_done = true then 1 else 0) 0
    if insert_done = false ∧ creator_trx_id < id then
      creator_trx_id :: read_view_purge_open.copy descriptors creator_trx_id k (i + 1) true
    else id :: read_view_purge_open.copy descriptors creator_trx_id k (i + 1) insert_done

/-- The view `read_view_purge_open` makes of a clone of the oldest view: the same limits,
    no creator, and the oldest view's creator among the descriptors. (`type` and `undo_no`
    are not set; they are kept here.) -/
def read_view_purge_open.of_oldest (oldest : read_view_t) : read_view_t :=
  let (n_descr, descriptors) :=
    if oldest.creator_trx_id = 0 then
      (oldest.n_descr, oldest.descriptors.take oldest.n_descr)
    else
      (oldest.n_descr + 1,
        read_view_purge_open.copy oldest.descriptors oldest.creator_trx_id oldest.n_descr 0 false)
  { oldest with
    n_descr := n_descr
    descriptors := descriptors
    up_limit_id :=
      if n_descr > 0 then min oldest.up_limit_id (descriptors.getD 0 0) else oldest.up_limit_id
    creator_trx_id := 0 }

/-- `read_view_purge_open`: the copy of the last view on the list that is not cached, walking
    back from the tail, or a view opened now for creator 0 (and not added) when there is
    none. -/
def read_view_purge_open (s : view_sys) : read_view_t :=
  match s.view_list.reverse.find? (fun v => !v.cached) with
  | none => read_view_open_now_low s.sys 0
  | some oldest => read_view_purge_open.of_oldest oldest.view

/-- Once the creator is in, the loop copies the rest shifted by one cell. -/
theorem read_view_purge_open.copy_done (L : List Nat) (c : Nat) :
    ∀ k i, 0 < i → i + k ≤ L.length →
      read_view_purge_open.copy L c k i true = (L.drop (i - 1)).take (k + 1)
  | 0, i, hi, hk => by
    have hlt : i - 1 < L.length := by omega
    simp [read_view_purge_open.copy, List.take_one, List.head?_drop, hlt]
  | k + 1, i, hi, hk => by
    have hlt : i - 1 < L.length := by omega
    rw [read_view_purge_open.copy, if_neg (by simp), copy_done L c k (i + 1) (by omega) (by omega),
      ← List.cons_getElem_drop_succ (h := hlt), List.take_succ_cons,
      show i + 1 - 1 = i - 1 + 1 by omega]
    simp [hlt]

/-- **The loop of `read_view_purge_open`** puts the creator after the ids that are not
    larger and before the rest. -/
theorem read_view_purge_open.copy_eq (L : List Nat) (c : Nat) :
    ∀ k i, i + k = L.length →
      read_view_purge_open.copy L c k i false =
        (L.drop i).takeWhile (fun x => !decide (c < x)) ++ c ::
          (L.drop i).dropWhile (fun x => !decide (c < x))
  | 0, i, hk => by
    simp [read_view_purge_open.copy, List.drop_eq_nil_of_le (show L.length ≤ i by omega)]
  | k + 1, i, hk => by
    have hlt : i < L.length := by omega
    rw [← List.cons_getElem_drop_succ (h := hlt), List.takeWhile_cons, List.dropWhile_cons,
      read_view_purge_open.copy]
    simp only [Bool.false_eq_true, if_false, Nat.sub_zero, List.getD_eq_getElem _ 0 hlt, true_and]
    by_cases hc : c < L[i]
    · -- the creator goes into cell `i`, the rest moves one cell up
      rw [if_pos hc, copy_done L c k (i + 1) (by omega) (by omega)]
      simp only [hc, decide_true, Bool.not_true, Bool.false_eq_true, if_false, List.nil_append,
        Nat.add_sub_cancel, List.cons.injEq, true_and]
      rw [← List.cons_getElem_drop_succ (h := hlt), List.take_of_length_le (by simp; omega)]
    · rw [if_neg hc, copy_eq L c k (i + 1) (by omega)]
      simp [hc]

/-- After the first id above `c` of an ascending list, every id is above `c`. -/
theorem dropWhile_not_lt_gt {L : List Nat} (hL : L.Pairwise (· < ·)) (c : Nat) :
    ∀ b ∈ L.dropWhile (fun x => !decide (c < x)), c < b := by
  induction L with
  | nil => simp
  | cons a L ih =>
    rw [List.pairwise_cons] at hL
    rw [List.dropWhile_cons]
    by_cases hca : c < a
    · simp only [hca, decide_true, Bool.not_true, Bool.false_eq_true, if_false]
      intro b hb
      rcases List.mem_cons.1 hb with rfl | hb
      · exact hca
      · exact hca.trans (hL.1 b hb)
    · simp only [hca, decide_false, Bool.not_false, if_true]
      exact ih hL.2

/-- The copy of a view whose descriptors ascend and miss its creator: it ascends, it has
    one cell more, and it holds the creator and the view's descriptors. -/
theorem read_view_purge_open.copy_spec {L : List Nat} {c : Nat} (hL : L.Pairwise (· < ·))
    (hc : c ∉ L) :
    (read_view_purge_open.copy L c L.length 0 false).Pairwise (· < ·) ∧
      (read_view_purge_open.copy L c L.length 0 false).length = L.length + 1 ∧
      ∀ x, x ∈ read_view_purge_open.copy L c L.length 0 false ↔ x = c ∨ x ∈ L := by
  rw [read_view_purge_open.copy_eq L c L.length 0 (by omega), List.drop_zero]
  have hsplit := List.takeWhile_append_dropWhile (p := fun x => !decide (c < x)) (l := L)
  -- the ids copied before the creator are below it, those after it above
  have hlo : ∀ a ∈ L.takeWhile (fun x => !decide (c < x)), a < c := fun a ha => by
    have hq := List.mem_takeWhile_imp ha
    have haL : a ∈ L := (List.takeWhile_sublist _).subset ha
    simp only [Bool.not_eq_true', decide_eq_false_iff_not, not_lt] at hq
    exact lt_of_le_of_ne hq fun h => hc (h ▸ haL)
  have hhi := dropWhile_not_lt_gt hL c
  refine ⟨?_, ?_, fun x => ?_⟩
  · rw [List.pairwise_append]
    refine ⟨hL.sublist (List.takeWhile_sublist _),
      List.pairwise_cons.2 ⟨hhi, hL.sublist (List.dropWhile_sublist _)⟩, fun a ha b hb => ?_⟩
    rcases List.mem_cons.1 hb with rfl | hb
    · exact hlo a ha
    · exact (hlo a ha).trans (hhi b hb)
  · have hlen := congrArg List.length hsplit
    simp only [List.length_append] at hlen
    simp only [List.length_append, List.length_cons]
    omega
  · conv_rhs => rw [← hsplit]
    simp only [List.mem_append, List.mem_cons]
    tauto

/-- The copy that `read_view_purge_open` makes of a well-formed view ascends, starts above
    its `up_limit_id`, and holds the view's descriptors and, if it has one, its creator. -/
theorem read_view_purge_open.of_oldest_wf {sys : trx_sys_t} {O : read_view_t}
    (hO : View_wf sys O) :
    (read_view_purge_open.of_oldest O).descriptors.Pairwise (· < ·) ∧
      (read_view_purge_open.of_oldest O).n_descr =
        (read_view_purge_open.of_oldest O).descriptors.length ∧
      (∀ x ∈ (read_view_purge_open.of_oldest O).descriptors,
        (read_view_purge_open.of_oldest O).up_limit_id ≤ x) ∧
      (read_view_purge_open.of_oldest O).up_limit_id ≤ O.up_limit_id ∧
      ∀ x, x ∈ (read_view_purge_open.of_oldest O).descriptors ↔
        x ∈ O.descriptors ∨ (x = O.creator_trx_id ∧ O.creator_trx_id ≠ 0) := by
  have hn := hO.n_descr
  by_cases hc0 : O.creator_trx_id = 0
  · -- no creator to put in: the descriptors are copied as they are
    simp only [read_view_purge_open.of_oldest, if_pos hc0, hn, List.take_length]
    refine ⟨hO.sorted, trivial, fun x hx => ?_, ?_, fun x => by simp [hc0]⟩
    · split_ifs
      · exact (min_le_left _ _).trans (hO.up_min x hx)
      · exact hO.up_min x hx
    · split_ifs
      · exact min_le_left _ _
      · exact le_refl _
  · -- the creator goes in at its place
    obtain ⟨hsorted, hlen, hmem⟩ := read_view_purge_open.copy_spec hO.sorted hO.creator
    simp only [read_view_purge_open.of_oldest, if_neg hc0, hn]
    refine ⟨hsorted, hlen.symm, fun x hx => ?_, ?_, fun x => by rw [hmem x]; tauto⟩
    · rw [if_pos (by omega)]
      exact (min_le_right _ _).trans (getD_zero_le_of_pairwise hsorted hx)
    · rw [if_pos (by omega)]
      exact min_le_left _ _

/-- **The purge view sees less than the oldest view**: an id it sees, the oldest view sees,
    and it is not that view's creator. -/
theorem read_view_purge_open.of_oldest_sees {sys : trx_sys_t} {O : read_view_t}
    (hO : View_wf sys O) {t : Nat} (ht : 0 < t)
    (hsees : read_view_sees_trx_id (read_view_purge_open.of_oldest O) t = true) :
    read_view_sees_trx_id O t = true ∧ t ≠ O.creator_trx_id := by
  obtain ⟨hsorted, hlen, hup_min, hup_le, hmem⟩ := read_view_purge_open.of_oldest_wf hO
  have hup_low : (read_view_purge_open.of_oldest O).up_limit_id ≤
      (read_view_purge_open.of_oldest O).low_limit_id := hup_le.trans hO.up_low
  rw [read_view_sees_trx_id_iff hsorted hlen hup_min hup_low ht] at hsees
  -- the purge view has no creator, so `t` is below its limit and not in its copy
  obtain ⟨hlt, hnot⟩ := hsees.resolve_left (fun h => by
    change t = 0 at h
    omega)
  rw [hmem] at hnot
  have hne : t ≠ O.creator_trx_id := fun h => by
    by_cases hc0 : O.creator_trx_id = 0
    · omega
    · exact hnot (Or.inr ⟨h, hc0⟩)
  exact ⟨(hO.sees_iff ht).2 (Or.inr ⟨hlt, fun h => hnot (Or.inl h)⟩), hne⟩

end purge

/-! ## 6. Runs -/

section runs

/-- The state every run keeps: the transactions of `Sys_inv`, every view on the list
    well formed, and each view older than those before it. -/
structure View_inv (s : view_sys) : Prop where
  sys : Sys_inv s.sys
  views : ∀ v ∈ s.view_list.map listed_view.view, View_wf s.sys v
  order : (s.view_list.map listed_view.view).Pairwise fun v u => View_older u v

/-- The runs from `trx_sys_init` with `srv_read_view_cache` set or not, each step one
    section under `trx_sys->mutex`. A serialisation number is taken once per transaction
    (at its commit); a view is opened for any creator, with any view the transaction
    holds. -/
inductive View_run (srv_read_view_cache : Bool) : view_sys → Prop
  | init (max_trx_id : Nat) : 0 < max_trx_id →
      View_run srv_read_view_cache ⟨trx_sys_init max_trx_id, []⟩
  | start {s : view_sys} : View_run srv_read_view_cache s →
      View_run srv_read_view_cache { s with sys := (trx_start_rw s.sys).2 }
  | serialise {s : view_sys} (trx : trx_t) : View_run srv_read_view_cache s →
      (∀ t ∈ s.sys.trx_serial_list, t.id ≠ trx.id) →
      View_run srv_read_view_cache { s with sys := (trx_serialisation_number_get s.sys trx).2 }
  | release {s : view_sys} (trx : trx_t) : View_run srv_read_view_cache s →
      View_run srv_read_view_cache { s with sys := trx_release_descriptor s.sys trx }
  | open_view {s : view_sys} (cr_trx_id : Nat) (pos : Option Nat) :
      View_run srv_read_view_cache s →
      View_run srv_read_view_cache (read_view_open_now s cr_trx_id pos)
  | remove {s : view_sys} (i : Nat) (own_mutex : Bool) : View_run srv_read_view_cache s →
      View_run srv_read_view_cache (read_view_remove srv_read_view_cache s i own_mutex)

variable {s : view_sys}

theorem View_inv.init {max_trx_id : Nat} (hmax : 0 < max_trx_id) :
    View_inv ⟨trx_sys_init max_trx_id, []⟩ where
  sys := Sys_inv.init hmax
  views := fun _ h => absurd h List.not_mem_nil
  order := List.Pairwise.nil

/-- A step of the transactions keeps the views as they are. -/
theorem View_inv.of_sys (hi : View_inv s) {sys' : trx_sys_t} (hs : Sys_inv sys')
    (hg : Sys_grows s.sys sys') : View_inv { s with sys := sys' } where
  sys := hs
  views := fun v hv => (hi.views v hv).mono hg
  order := hi.order

/-- Keeping some of the views, in order, keeps the invariant. -/
theorem View_inv.of_sublist (hi : View_inv s) {L : List listed_view}
    (hL : (L.map listed_view.view).Sublist (s.view_list.map listed_view.view)) :
    View_inv { s with view_list := L } where
  sys := hi.sys
  views := fun v hv => hi.views v (hL.subset hv)
  order := hi.order.sublist hL

/-- **Opening a view** keeps the invariant: the new view goes to the head, and every view
    on the list is older. -/
theorem View_inv.open_view (hi : View_inv s) (c : Nat) (pos : Option Nat) :
    View_inv (read_view_open_now s c pos) := by
  have hlow : ∀ e ∈ s.view_list, e.view.low_limit_no ≤ s.sys.low_limit_no := fun e he =>
    (hi.views e.view (List.mem_map_of_mem he)).low_no
  obtain ⟨hsys, hsame | ⟨L, hL, hsub⟩⟩ := read_view_open_now_cases s c pos hlow
  · -- a cached view taken back: the views are those of the list
    have h := hi.of_sublist (hsame ▸ List.Sublist.refl _ :
      ((read_view_open_now s c pos).view_list.map listed_view.view).Sublist
        (s.view_list.map listed_view.view))
    rw [← hsys] at h
    exact h
  · have hL' := hi.of_sublist hsub
    refine ⟨by rw [hsys]; exact hi.sys, fun v hv => ?_, ?_⟩
    · rw [hL, List.map_cons, List.mem_cons] at hv
      rw [hsys]
      rcases hv with rfl | hv
      · exact View_wf.open_now hi.sys
      · exact hL'.views v hv
    · rw [hL, List.map_cons, List.pairwise_cons]
      exact ⟨fun u hu => View_older.open_now hi.sys (hL'.views u hu), hL'.order⟩

/-- Closing or caching a view keeps the invariant. -/
theorem View_inv.remove (hi : View_inv s) (srv : Bool) (i : Nat) (own_mutex : Bool) :
    View_inv (read_view_remove srv s i own_mutex) := by
  obtain ⟨hsys, hsub⟩ := read_view_remove_sublist srv s i own_mutex
  have h := hi.of_sublist hsub
  rw [← hsys] at h
  exact h

/-- **The invariant of every run**, by induction on the run, one lemma a step. -/
theorem View_inv.of_run {srv : Bool} (hrun : View_run srv s) : View_inv s := by
  induction hrun with
  | init max_trx_id hmax => exact View_inv.init hmax
  | start _ ih =>
    obtain ⟨hs, hg⟩ := ih.sys.start
    exact ih.of_sys hs hg
  | serialise trx _ hnew ih =>
    obtain ⟨hs, hg⟩ := ih.sys.serialise hnew
    exact ih.of_sys hs hg
  | release trx _ ih =>
    obtain ⟨hs, hg⟩ := ih.sys.release trx
    exact ih.of_sys hs hg
  | open_view c pos _ ih => exact ih.open_view c pos
  | remove i own_mutex _ ih => exact ih.remove _ i own_mutex

/-- The list is the views before the last one not cached, that one, and cached views. -/
theorem find?_reverse_not_cached {L : List listed_view} {O : listed_view}
    (h : L.reverse.find? (fun v => !v.cached) = some O) :
    O.cached = false ∧ ∃ pre post, L = pre ++ O :: post ∧ ∀ w ∈ post, w.cached = true := by
  obtain ⟨hO, as, bs, hrev, has⟩ := List.find?_eq_some_iff_append.1 h
  refine ⟨by simpa using hO, bs.reverse, as.reverse, ?_, fun w hw => ?_⟩
  · rw [← List.reverse_reverse L, hrev]
    simp
  · simpa using has w (List.mem_reverse.1 hw)

/-- **Purge never outruns a reader.** In every run, the view `read_view_purge_open` returns
    has a `low_limit_no` at most that of every open view that is not cached, and every id it
    sees as committed, each such view sees too. -/
theorem read_view_purge_open_safe {srv : Bool} (hrun : View_run srv s) {v : listed_view}
    (hv : v ∈ s.view_list) (hc : v.cached = false) :
    (read_view_purge_open s).low_limit_no ≤ v.view.low_limit_no ∧
      ∀ t, 0 < t → read_view_sees_trx_id (read_view_purge_open s) t = true →
        read_view_sees_trx_id v.view t = true := by
  have hi := View_inv.of_run hrun
  unfold read_view_purge_open
  cases hfind : s.view_list.reverse.find? (fun v => !v.cached) with
  | none =>
    -- every view on the list is cached
    have := List.find?_eq_none.1 hfind v (List.mem_reverse.2 hv)
    simp [hc] at this
  | some O =>
    obtain ⟨-, pre, post, hL, hpost⟩ := find?_reverse_not_cached hfind
    have hOwf : View_wf s.sys O.view := hi.views O.view (List.mem_map_of_mem (by simp [hL]))
    -- `v` is the oldest view not cached, or before it on the list
    have hvO : v = O ∨ View_older O.view v.view := by
      rw [hL] at hv
      rcases List.mem_append.1 hv with hpre | hv
      · right
        have hord := hi.order
        rw [hL, List.map_append, List.pairwise_append] at hord
        exact hord.2.2 v.view (List.mem_map_of_mem hpre) O.view (by simp)
      · rcases List.mem_cons.1 hv with rfl | hv
        · exact Or.inl rfl
        · simp [hpost v hv] at hc
    refine ⟨?_, fun t ht hsees => ?_⟩
    · rcases hvO with rfl | hold
      · exact le_refl _
      · exact hold.1
    · obtain ⟨hOsees, hne⟩ := read_view_purge_open.of_oldest_sees hOwf ht hsees
      rcases hvO with rfl | hold
      · exact hOsees
      · exact hold.2 t ht hOsees hne

/-- Transaction 5 opens a view, transaction 6 starts, a read-only transaction opens a view:
    the purge view is the first view's, with 5 put among its descriptors. -/
theorem read_view_purge_open_safe_two_views :
    ∃ s v, View_run true s ∧ v ∈ s.view_list ∧ v.cached = false ∧
      (read_view_purge_open s).low_limit_no ≤ v.view.low_limit_no ∧
      ∀ t, 0 < t → read_view_sees_trx_id (read_view_purge_open s) t = true →
        read_view_sees_trx_id v.view t = true := by
  have hrun := View_run.open_view 0 none (View_run.start (View_run.open_view 5 none
    (View_run.start (View_run.init 5 (by decide) : View_run true _))))
  -- the first view is the last on the list
  refine ⟨_, ⟨read_view_open_now_low (trx_start_rw (trx_sys_init 5)).2 5, false⟩, hrun,
    List.mem_cons_of_mem _ (List.mem_singleton_self _), rfl, ?_⟩
  exact read_view_purge_open_safe hrun (List.mem_cons_of_mem _ (List.mem_singleton_self _)) rfl

/-- **The view list stays valid** (`read_view_list_validate`, `read_view_validate`): in
    every run the list descends by `low_limit_no`, and every view on it has strictly
    ascending descriptors, as many as `n_descr`, and `up_limit_id ≤ low_limit_id`. -/
theorem view_list_validate {srv : Bool} (hrun : View_run srv s) :
    (s.view_list.map fun v => v.view.low_limit_no).Pairwise (· ≥ ·) ∧
      ∀ v ∈ s.view_list, v.view.descriptors.Pairwise (· < ·) ∧
        v.view.n_descr = v.view.descriptors.length ∧ v.view.up_limit_id ≤ v.view.low_limit_id := by
  have hi := View_inv.of_run hrun
  refine ⟨?_, fun v hv => ?_⟩
  · have hord := hi.order
    rw [List.pairwise_map] at hord ⊢
    exact hord.imp fun h => h.1
  · have hw := hi.views v.view (List.mem_map_of_mem hv)
    exact ⟨hw.sorted, hw.n_descr, hw.up_low⟩

theorem view_list_validate_two_views :
    ∃ s, View_run true s ∧
      (s.view_list.map fun v => v.view.low_limit_no).Pairwise (· ≥ ·) ∧
      ∀ v ∈ s.view_list, v.view.descriptors.Pairwise (· < ·) ∧
        v.view.n_descr = v.view.descriptors.length ∧ v.view.up_limit_id ≤ v.view.low_limit_id := by
  have hrun := View_run.open_view 0 none (View_run.start (View_run.open_view 5 none
    (View_run.start (View_run.init 5 (by decide) : View_run true _))))
  exact ⟨_, hrun, view_list_validate hrun⟩

end runs

end AliSql
