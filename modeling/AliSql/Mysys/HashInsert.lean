import Mathlib
import AliSql.Mysys.Hash

/-!
# `my_hash_insert` keeps the invariant (`mysys/hash.c`)

`my_hash_insert` adds bucket `records` to the table by splitting bucket
`records - blength / 2`: in one walk of that bucket's chain it sends every record whose
bit `blength / 2` is clear to a low chain and the others to a high chain, reusing the
cells of the old chain and the new cell `records`. The walk keeps four bits in `flag`
(a chain has a record, its last record is in its own cell already) and, for each chain,
the cell its last record goes to (`gpos`, `gpos2`) and that record (`ptr_to_rec`,
`ptr_to_rec2`); one cell is left over, `empty`. The new record then goes to the cell of
its bucket, whose occupant moves to `empty`.

1. `flagOf` reads the four bits of `flag`, and `split_step` gets one equation per branch.
2. `SplitSide` is what the walk has built of one chain: the cells `split_cells hd xs` for
   the records of the cells `xs` of its side, linked in turn up to the last one. Its
   lemmas are the moves of the walk: start a chain in place or in the empty cell, extend
   it with or without a write, leave it alone while the other chain moves, finish it.
3. `SplitInv` is the invariant of the walk after a prefix `p` of the chain: the two
   sides, `flag`, which cells the chains and `empty` take (a permutation of `p` and the
   new cell), and every cell off `p` unchanged. `SplitInv.step` and `split_loop_inv`
   carry it along the whole chain.
-/

set_option autoImplicit false

namespace AliSql

variable {α K : Type}

/-! ## 1. The flag of the split loop -/

/-- The `flag` of the split loop of `my_hash_insert`, from its four bits. -/
def flagOf (lowfind lowused highfind highused : Bool) : Nat :=
  (if lowfind then LOWFIND else 0) ||| (if lowused then LOWUSED else 0) |||
    (if highfind then HIGHFIND else 0) ||| (if highused then HIGHUSED else 0)

section flag

variable (a b c d : Bool)

@[simp] theorem flagOf_and_LOWFIND : flagOf a b c d &&& LOWFIND = 0 ↔ a = false := by
  cases a <;> cases b <;> cases c <;> cases d <;> decide

@[simp] theorem flagOf_and_LOWUSED : flagOf a b c d &&& LOWUSED = 0 ↔ b = false := by
  cases a <;> cases b <;> cases c <;> cases d <;> decide

@[simp] theorem flagOf_and_HIGHFIND : flagOf a b c d &&& HIGHFIND = 0 ↔ c = false := by
  cases a <;> cases b <;> cases c <;> cases d <;> decide

@[simp] theorem flagOf_and_HIGHUSED : flagOf a b c d &&& HIGHUSED = 0 ↔ d = false := by
  cases a <;> cases b <;> cases c <;> cases d <;> decide

theorem flagOf_eq_zero : flagOf a b c d = 0 ↔ a = false ∧ b = false ∧ c = false ∧ d = false := by
  cases a <;> cases b <;> cases c <;> cases d <;> decide

theorem flagOf_low_first : LOWFIND ||| LOWUSED = flagOf true true false false := by decide

theorem flagOf_low_after_high : LOWFIND ||| HIGHFIND = flagOf true false true false := by decide

theorem flagOf_low_write :
    (flagOf a b c d &&& HIGHFIND) ||| (LOWFIND ||| LOWUSED) = flagOf true true c false := by
  cases a <;> cases b <;> cases c <;> cases d <;> decide

theorem flagOf_high_first : (flagOf a b c d &&& LOWFIND) ||| HIGHFIND = flagOf a false true false := by
  cases a <;> cases b <;> cases c <;> cases d <;> decide

theorem flagOf_high_write :
    (flagOf a b c d &&& LOWFIND) ||| (HIGHFIND ||| HIGHUSED) = flagOf a false true true := by
  cases a <;> cases b <;> cases c <;> cases d <;> decide

/-- The test after the loop: the low chain has a record that is not in its cell. -/
theorem flagOf_low_pending :
    flagOf a b c d &&& (LOWFIND ||| LOWUSED) = LOWFIND ↔ a = true ∧ b = false := by
  cases a <;> cases b <;> cases c <;> cases d <;> decide

theorem flagOf_high_pending :
    flagOf a b c d &&& (HIGHFIND ||| HIGHUSED) = HIGHFIND ↔ c = true ∧ d = false := by
  cases a <;> cases b <;> cases c <;> cases d <;> decide

end flag

/-! ## 2. One turn of the split loop, branch by branch -/

section step

variable {halfbuff pos : Nat} {hash_nr : UInt32} {s : split_state α} {a b c d : Bool}

theorem split_step_low_first (hs : s.flag = flagOf false false false false)
    (hl : hash_nr.toNat &&& halfbuff = 0) :
    my_hash_insert.split_step halfbuff s pos hash_nr =
      { s with flag := flagOf true true false false, gpos := pos,
               ptr_to_rec := (s.array pos).data } := by
  simp [my_hash_insert.split_step, hs, hl, flagOf_low_first]

theorem split_step_low_after_high (hs : s.flag = flagOf false false true d)
    (hl : hash_nr.toNat &&& halfbuff = 0) :
    my_hash_insert.split_step halfbuff s pos hash_nr =
      { s with flag := flagOf true false true false, gpos := s.empty,
               ptr_to_rec := (s.array pos).data, empty := pos } := by
  simp [my_hash_insert.split_step, hs, hl, flagOf_low_after_high]

theorem split_step_low_write (hs : s.flag = flagOf true false c d)
    (hl : hash_nr.toNat &&& halfbuff = 0) :
    my_hash_insert.split_step halfbuff s pos hash_nr =
      { s with array := Function.update s.array s.gpos ⟨pos, s.ptr_to_rec⟩,
               flag := flagOf true true c false, gpos := pos,
               ptr_to_rec := (Function.update s.array s.gpos ⟨pos, s.ptr_to_rec⟩ pos).data } := by
  simp [my_hash_insert.split_step, hs, hl, flagOf_low_write]

theorem split_step_low_used (hs : s.flag = flagOf true true c d)
    (hl : hash_nr.toNat &&& halfbuff = 0) :
    my_hash_insert.split_step halfbuff s pos hash_nr =
      { s with gpos := pos, ptr_to_rec := (s.array pos).data } := by
  simp [my_hash_insert.split_step, hs, hl]

theorem split_step_high_first (hs : s.flag = flagOf a b false false)
    (hh : hash_nr.toNat &&& halfbuff ≠ 0) :
    my_hash_insert.split_step halfbuff s pos hash_nr =
      { s with flag := flagOf a false true false, gpos2 := s.empty, empty := pos,
               ptr_to_rec2 := (s.array pos).data } := by
  simp [my_hash_insert.split_step, hs, hh, flagOf_high_first]

theorem split_step_high_write (hs : s.flag = flagOf a b true false)
    (hh : hash_nr.toNat &&& halfbuff ≠ 0) :
    my_hash_insert.split_step halfbuff s pos hash_nr =
      { s with array := Function.update s.array s.gpos2 ⟨pos, s.ptr_to_rec2⟩,
               flag := flagOf a false true true, gpos2 := pos,
               ptr_to_rec2 := (Function.update s.array s.gpos2 ⟨pos, s.ptr_to_rec2⟩ pos).data } := by
  simp [my_hash_insert.split_step, hs, hh, flagOf_high_write]

theorem split_step_high_used (hs : s.flag = flagOf a b true true)
    (hh : hash_nr.toNat &&& halfbuff ≠ 0) :
    my_hash_insert.split_step halfbuff s pos hash_nr =
      { s with gpos2 := pos, ptr_to_rec2 := (s.array pos).data } := by
  simp [my_hash_insert.split_step, hs, hh]

end step

/-! ## 3. A chain of the split -/

/-- The cells a chain of the split takes for the records of the cells `xs` of its side:
    its head cell `hd` for the first record, their own cells for the others. -/
def split_cells (hd : Nat) : List Nat → List Nat
  | [] => []
  | _ :: t => hd :: t

section side

variable {hd x : Nat} {xs : List Nat}

@[simp] theorem split_cells_nil : split_cells hd [] = [] := rfl

@[simp] theorem split_cells_singleton : split_cells hd [x] = [hd] := rfl

@[simp] theorem split_cells_eq_nil : split_cells hd xs = [] ↔ xs = [] := by
  cases xs <;> simp [split_cells]

theorem split_cells_append (hxs : xs ≠ []) : split_cells hd (xs ++ [x]) = split_cells hd xs ++ [x] := by
  obtain ⟨y, ys, rfl⟩ := List.exists_cons_of_ne_nil hxs
  rfl

/-- What the split loop has built of one chain, after the cells `xs` of its side, the last
    cell it passed being `plast`: the cells `split_cells hd xs` are linked in turn from `hd`
    up to the last one, `gpos`, and hold the records of `xs` but the last, which waits in
    `ptr`; `used` says it is in `gpos` already, `gpos` being that record's own cell and
    the last the loop passed. -/
def SplitSide (A arr : Nat → HASH_LINK α) (hd : Nat) (xs : List Nat) (gpos : Nat) (ptr : α)
    (used : Bool) (plast : Option Nat) : Prop :=
  (xs = [] ∧ used = false) ∨
  ∃ pos' xs' y, split_cells hd xs = pos' ++ [gpos] ∧ xs = xs' ++ [y] ∧
    Links.Path (fun j => (arr j).next) hd pos' gpos ∧
    pos'.map (fun j => (arr j).data) = xs'.map (fun j => (A j).data) ∧ ptr = (A y).data ∧
    (used = true → gpos = y ∧ plast = some y ∧ arr y = A y)

variable {A arr arr' : Nat → HASH_LINK α} {gpos : Nat} {ptr : α} {used : Bool}
  {plast plast' : Option Nat}

/-- A side with no records has nothing in its cell. -/
theorem SplitSide.used_of_nil (h : SplitSide A arr hd [] gpos ptr used plast) : used = false := by
  rcases h with ⟨-, h⟩ | ⟨pos', xs', y, -, hxs, -⟩
  · exact h
  · exact absurd hxs.symm (by simp)

/-- The last cell of a side with records is one of its cells. -/
theorem SplitSide.gpos_mem (h : SplitSide A arr hd xs gpos ptr used plast) (hxs : xs ≠ []) :
    gpos ∈ split_cells hd xs := by
  rcases h with ⟨rfl, -⟩ | ⟨pos', xs', y, hc, -⟩
  · exact absurd rfl hxs
  · rw [hc]
    exact List.mem_append_right _ (List.mem_singleton_self _)

/-- A side only reads its own cells. -/
theorem SplitSide.congr (h : SplitSide A arr hd xs gpos ptr used plast)
    (harr : ∀ j ∈ split_cells hd xs, arr' j = arr j) :
    SplitSide A arr' hd xs gpos ptr used plast := by
  rcases h with ⟨rfl, hu⟩ | ⟨pos', xs', y, hc, hxs, hp, hdata, hptr, hused⟩
  · exact Or.inl ⟨rfl, hu⟩
  · have hpos : ∀ j ∈ pos', arr' j = arr j := fun j hj =>
      harr j (by rw [hc]; exact List.mem_append_left _ hj)
    refine Or.inr ⟨pos', xs', y, hc, hxs, hp.congr fun j hj => by rw [hpos j hj], ?_, hptr,
      fun hu => ?_⟩
    · rw [← hdata]
      exact List.map_congr_left fun j hj => by rw [hpos j hj]
    · obtain ⟨rfl, hpl, hy⟩ := hused hu
      refine ⟨rfl, hpl, ?_⟩
      rw [harr gpos (by rw [hc]; exact List.mem_append_right _ (List.mem_singleton_self _)), hy]

/-- A side whose last record is not in its cell, whatever cell the loop passed last. -/
theorem SplitSide.forget (h : SplitSide A arr hd xs gpos ptr used plast) :
    SplitSide A arr hd xs gpos ptr false plast' := by
  rcases h with ⟨rfl, -⟩ | ⟨pos', xs', y, hc, hxs, hp, hdata, hptr, -⟩
  · exact Or.inl ⟨rfl, rfl⟩
  · exact Or.inr ⟨pos', xs', y, hc, hxs, hp, hdata, hptr, fun h => absurd h (by simp)⟩

/-- **The other chain moves.** A side is kept by any change away from its cells, and its
    last record is no longer the last the loop passed. -/
theorem SplitSide.other (h : SplitSide A arr hd xs gpos ptr used plast)
    (harr : ∀ j ∈ split_cells hd xs, arr' j = arr j) :
    SplitSide A arr' hd xs gpos ptr false plast' :=
  (h.congr harr).forget

/-- **A chain starts in place**: its first record is in its head cell already. -/
theorem SplitSide.start_in_place (hx : arr x = A x) :
    SplitSide A arr x [x] x (A x).data true (some x) :=
  Or.inr ⟨[], [], x, rfl, rfl, Links.path_nil.2 rfl, rfl, rfl, fun _ => ⟨rfl, rfl, hx⟩⟩

/-- **A chain starts elsewhere**: its first record waits for the head cell. -/
theorem SplitSide.start_moved : SplitSide A arr hd [x] hd (A x).data false plast :=
  Or.inr ⟨[], [], x, rfl, rfl, Links.path_nil.2 rfl, rfl, rfl, fun h => absurd h (by simp)⟩

/-- **A chain grows in place**: its last record was in its own cell, just before `x` in
    the old chain, so the old link already leads to `x`. -/
theorem SplitSide.extend_used (h : SplitSide A arr hd xs gpos ptr true plast)
    (hnext : ∀ y, plast = some y → (A y).next = x) (hx : arr x = A x) :
    SplitSide A arr hd (xs ++ [x]) x (A x).data true (some x) := by
  rcases h with ⟨-, h⟩ | ⟨pos', xs', y, hc, rfl, hp, hdata, hptr, hused⟩
  · exact absurd h (by simp)
  · obtain ⟨rfl, hpl, hy⟩ := hused rfl
    refine Or.inr ⟨pos' ++ [gpos], xs' ++ [gpos], x, ?_, rfl, ?_, ?_, rfl,
      fun _ => ⟨rfl, rfl, hx⟩⟩
    · rw [split_cells_append (by simp), hc]
    · exact Links.path_concat.2 ⟨hp, by rw [hy]; exact hnext gpos hpl⟩
    · simp only [List.map_append, List.map_singleton, hdata, hy]

/-- **A chain grows with a write**: its waiting record is written to its last cell,
    linked to `x`, and `x` takes its turn in its own cell. -/
theorem SplitSide.extend_write (h : SplitSide A arr hd xs gpos ptr false plast) (hxs : xs ≠ [])
    (hnd : (split_cells hd xs).Nodup) (hxg : x ≠ gpos) (hx : arr x = A x) :
    SplitSide A (Function.update arr gpos ⟨x, ptr⟩) hd (xs ++ [x]) x (A x).data true
      (some x) := by
  rcases h with ⟨rfl, -⟩ | ⟨pos', xs', y, hc, rfl, hp, hdata, hptr, -⟩
  · exact absurd rfl hxs
  · have hg : gpos ∉ pos' := by
      rw [hc] at hnd
      exact (List.nodup_cons.1 (List.nodup_append_comm.1 hnd)).1
    have hpos : ∀ j ∈ pos', Function.update arr gpos ⟨x, ptr⟩ j = arr j := fun j hj =>
      Function.update_of_ne (ne_of_mem_of_not_mem hj hg) _ _
    refine Or.inr ⟨pos' ++ [gpos], xs' ++ [y], x, ?_, rfl, ?_, ?_, rfl, fun _ =>
      ⟨rfl, rfl, by rw [Function.update_of_ne hxg, hx]⟩⟩
    · rw [split_cells_append hxs, hc]
    · refine Links.path_concat.2 ⟨hp.congr fun j hj => by rw [hpos j hj], ?_⟩
      simp
    · simp only [List.map_append, List.map_singleton, Function.update_self, ← hptr, ← hdata]
      congr 1
      exact List.map_congr_left fun j hj => by rw [hpos j hj]

/-- **A chain is finished** after the loop: its waiting record, if any, is written to its
    last cell, which ends the chain; otherwise the last record is the old chain's last,
    in its own cell, whose link ends the chain already. -/
theorem SplitSide.finish (h : SplitSide A arr hd xs gpos ptr used plast) (hxs : xs ≠ [])
    (hnd : (split_cells hd xs).Nodup) (hnil : NO_RECORD ∉ split_cells hd xs)
    (hend : used = true → ∀ y, plast = some y → (A y).next = NO_RECORD) :
    let fin := if used then arr else Function.update arr gpos ⟨NO_RECORD, ptr⟩
    Links.Chain (fun j => (fin j).next) NO_RECORD hd (split_cells hd xs) ∧
      (split_cells hd xs).map (fun j => (fin j).data) = xs.map fun j => (A j).data := by
  intro fin
  rcases h with ⟨rfl, -⟩ | ⟨pos', xs', y, hc, rfl, hp, hdata, hptr, hused⟩
  · exact absurd rfl hxs
  · have hg : gpos ∉ pos' := by
      rw [hc] at hnd
      exact (List.nodup_cons.1 (List.nodup_append_comm.1 hnd)).1
    have hpos : ∀ j ∈ pos', fin j = arr j := fun j hj => by
      cases used
      · exact Function.update_of_ne (ne_of_mem_of_not_mem hj hg) _ _
      · rfl
    -- the last cell: the old chain's last record in place, or the waiting one written
    have hlast : fin gpos = ⟨NO_RECORD, (A y).data⟩ := by
      cases used
      · simp [fin, hptr]
      · obtain ⟨rfl, hpl, hy⟩ := hused rfl
        simp only [fin, if_true, hy]
        rw [← hend rfl gpos hpl]
    rw [hc] at hnil ⊢
    refine ⟨Links.chain_concat.2 ⟨hp.congr fun j hj => by rw [hpos j hj], by rw [hlast],
      fun hg' => hnil (by rw [hg']; simp), fun hn => hnil (List.mem_append_left _ hn)⟩, ?_⟩
    simp only [List.map_append, List.map_singleton, hlast, ← hdata]
    congr 1
    exact List.map_congr_left fun j hj => by rw [hpos j hj]

end side

/-! ## 4. The invariant of the split loop -/

/-- The record of cell `j` stays in the low chain: its bit `halfbuff` is clear. -/
def HASH.stays (info : HASH α K) (halfbuff j : Nat) : Prop :=
  (rec_hashnr info (info.array j).data).toNat &&& halfbuff = 0

instance (info : HASH α K) (halfbuff j : Nat) : Decidable (info.stays halfbuff j) :=
  inferInstanceAs (Decidable (_ = _))

/-- The cells of `p` whose records stay in the low chain. -/
def HASH.lows (info : HASH α K) (halfbuff : Nat) (p : List Nat) : List Nat :=
  p.filter fun j => info.stays halfbuff j

/-- The cells of `p` whose records go to the high chain. -/
def HASH.highs (info : HASH α K) (halfbuff : Nat) (p : List Nat) : List Nat :=
  p.filter fun j => ¬info.stays halfbuff j

/-- The invariant of the split loop of `my_hash_insert` after the cells `p` of the chain of
    bucket `F`, `lu` and `hu` being the bits `LOWUSED` and `HIGHUSED`: the low chain is
    built for the records of `p` that stay, from cell `F`, and the high chain for the
    others, from the new cell `records`; between them and `empty` they take the cells of
    `p` and the new cell, once each; and no other cell has changed. -/
structure SplitInv (info : HASH α K) (halfbuff F : Nat) (lu hu : Bool) (p : List Nat)
    (s : split_state α) : Prop where
  flag : s.flag = flagOf (info.lows halfbuff p ≠ []) lu (info.highs halfbuff p ≠ []) hu
  not_both : ¬(lu = true ∧ hu = true)
  low : SplitSide info.array s.array F (info.lows halfbuff p) s.gpos s.ptr_to_rec lu p.getLast?
  high : SplitSide info.array s.array info.records (info.highs halfbuff p) s.gpos2
    s.ptr_to_rec2 hu p.getLast?
  cells : (p ++ [info.records]).Perm (split_cells F (info.lows halfbuff p) ++
    split_cells info.records (info.highs halfbuff p) ++ [s.empty])
  empty_high : info.highs halfbuff p = [] → s.empty = info.records
  empty_low : info.lows halfbuff p = [] → info.highs halfbuff p ≠ [] → s.empty = F
  frame : ∀ j, j ∉ p → j ≠ info.records → s.array j = info.array j

section invariant

variable {info : HASH α K} {halfbuff F x : Nat} {lu hu : Bool} {p q : List Nat}
  {s : split_state α}

@[simp] theorem HASH.lows_nil : info.lows halfbuff [] = [] := rfl

@[simp] theorem HASH.highs_nil : info.highs halfbuff [] = [] := rfl

theorem HASH.lows_append_of_stays (hx : info.stays halfbuff x) :
    info.lows halfbuff (p ++ [x]) = info.lows halfbuff p ++ [x] := by
  simp [HASH.lows, List.filter_append, hx]

theorem HASH.highs_append_of_stays (hx : info.stays halfbuff x) :
    info.highs halfbuff (p ++ [x]) = info.highs halfbuff p := by
  simp [HASH.highs, List.filter_append, hx]

theorem HASH.lows_append_of_not_stays (hx : ¬info.stays halfbuff x) :
    info.lows halfbuff (p ++ [x]) = info.lows halfbuff p := by
  simp [HASH.lows, List.filter_append, hx]

theorem HASH.highs_append_of_not_stays (hx : ¬info.stays halfbuff x) :
    info.highs halfbuff (p ++ [x]) = info.highs halfbuff p ++ [x] := by
  simp [HASH.highs, List.filter_append, hx]

/-- Every cell of `p` is on one side. -/
theorem HASH.eq_nil_of_lows_highs (hl : info.lows halfbuff p = []) (hh : info.highs halfbuff p = []) :
    p = [] := by
  rw [HASH.lows, List.filter_eq_nil_iff] at hl
  rw [HASH.highs, List.filter_eq_nil_iff] at hh
  exact List.eq_nil_iff_forall_not_mem.2 fun j hj => hh j hj (by simpa using hl j hj)

/-- Inserting a cell on both sides of a permutation of the cells. -/
theorem perm_insert_cell {m₁ m₂ : List Nat} {N : Nat} (h : (p ++ [N]).Perm (m₁ ++ m₂)) :
    (p ++ [x] ++ [N]).Perm (m₁ ++ x :: m₂) := by
  have hx : (p ++ [x] ++ [N]).Perm (x :: (p ++ [N])) := by
    rw [List.append_assoc, List.singleton_append]
    exact List.perm_middle
  exact hx.trans ((h.cons x).trans List.perm_middle.symm)

/-- The loop starts with `flag` 0 and `empty` the new cell. -/
theorem SplitInv.init (record : α) :
    SplitInv info halfbuff F false false [] ⟨0, 0, 0, record, record, info.records, info.array⟩ where
  flag := by simp [flagOf]
  not_both := by simp
  low := Or.inl ⟨rfl, rfl⟩
  high := Or.inl ⟨rfl, rfl⟩
  cells := by simp
  empty_high _ := rfl
  empty_low _ h := absurd rfl h
  frame _ _ _ := rfl

/-- The cells the chains and `empty` take are distinct, and none is the cell `x` the loop
    comes to next. -/
theorem SplitInv.cells_nodup (hI : SplitInv info halfbuff F lu hu p s)
    (hc : Links.Chain info.next NO_RECORD F (p ++ x :: q))
    (hlt : ∀ j ∈ p ++ x :: q, j < info.records) :
    (split_cells F (info.lows halfbuff p) ++ split_cells info.records (info.highs halfbuff p) ++
      [s.empty]).Nodup ∧
    ∀ j ∈ split_cells F (info.lows halfbuff p) ++ split_cells info.records (info.highs halfbuff p) ++
      [s.empty], j ≠ x ∧ (j ∉ p → j = info.records) := by
  have hnd := List.nodup_middle.1 hc.nodup
  have hxp : x ∉ p := fun h => (List.nodup_cons.1 hnd).1 (List.mem_append_left _ h)
  have hpN : (p ++ [info.records]).Nodup := by
    refine List.nodup_append.2 ⟨(List.nodup_cons.1 hnd).2.sublist (List.sublist_append_left _ _),
      List.nodup_singleton _, fun a ha b hb => ?_⟩
    rw [List.mem_singleton] at hb
    have := hlt a (List.mem_append_left _ ha)
    omega
  refine ⟨hI.cells.nodup_iff.1 hpN, fun j hj => ?_⟩
  have hj' := hI.cells.mem_iff.2 hj
  rw [List.mem_append, List.mem_singleton] at hj'
  have hxN := hlt x (List.mem_append_right _ List.mem_cons_self)
  rcases hj' with hj' | rfl
  · exact ⟨ne_of_mem_of_not_mem hj' hxp, fun h => absurd hj' h⟩
  · exact ⟨by omega, fun _ => rfl⟩

/-! ### The turns of the loop, case by case

Each lemma is one branch of `split_step`: the state after it, and the invariant it keeps.
The cells `x` and the state's `gpos`/`gpos2` are told apart by `SplitInv.cells_nodup`. -/

/-- The first cell of the chain stays: the low chain starts in place. -/
theorem SplitInv.low_first (hI : SplitInv info halfbuff F false false [] s)
    (hx : info.stays halfbuff x) (hxF : x = F) (hsx : s.array x = info.array x) :
    SplitInv info halfbuff F true false [x]
      { s with flag := flagOf true true false false, gpos := x,
               ptr_to_rec := (s.array x).data } where
  flag := by simp [HASH.lows, HASH.highs, hx]
  not_both := by simp
  low := by
    have hl : info.lows halfbuff [x] = [x] := by simp [HASH.lows, hx]
    dsimp only
    rw [hl, hsx, ← hxF]
    exact SplitSide.start_in_place hsx
  high := by
    have hh : info.highs halfbuff [x] = [] := by simp [HASH.highs, hx]
    rw [hh]
    exact Or.inl ⟨rfl, rfl⟩
  cells := by
    subst hxF
    simp [HASH.lows, HASH.highs, hx, hI.empty_high rfl]
  empty_high _ := hI.empty_high rfl
  empty_low h := absurd h (by simp [HASH.lows, hx])
  frame j _ hjN := hI.frame j List.not_mem_nil hjN

/-- The first record that stays comes after records that move: it goes to cell `F`,
    which the first of those has left empty. -/
theorem SplitInv.low_after_high (hI : SplitInv info halfbuff F false hu p s)
    (hl : info.lows halfbuff p = []) (hh : info.highs halfbuff p ≠ [])
    (hx : info.stays halfbuff x) (hsx : s.array x = info.array x) :
    SplitInv info halfbuff F false false (p ++ [x])
      { s with flag := flagOf true false true false, gpos := s.empty,
               ptr_to_rec := (s.array x).data, empty := x } where
  flag := by simp [HASH.lows_append_of_stays hx, HASH.highs_append_of_stays hx, hh]
  not_both := by simp
  low := by
    dsimp only
    rw [HASH.lows_append_of_stays hx, hl, List.nil_append, hsx, hI.empty_low hl hh]
    exact SplitSide.start_moved
  high := by
    dsimp only
    rw [HASH.highs_append_of_stays hx]
    exact hI.high.other fun _ _ => rfl
  cells := by
    dsimp only
    have h : (p ++ [info.records]).Perm
        (split_cells info.records (info.highs halfbuff p) ++ [F] ++ []) := by
      simpa [hl, hI.empty_low hl hh] using hI.cells
    rw [HASH.lows_append_of_stays hx, HASH.highs_append_of_stays hx, hl, List.nil_append,
      split_cells_singleton]
    exact (perm_insert_cell h).trans (List.perm_append_comm.append_right [x])
  empty_high h := absurd (by rwa [HASH.highs_append_of_stays hx] at h) hh
  empty_low h := absurd h (by simp [HASH.lows_append_of_stays hx])
  frame j hj hjN := hI.frame j (fun h => hj (List.mem_append_left _ h)) hjN

/-- A record that stays, after one that stays but waits: the waiting one is written to
    its cell, linked to this one, which keeps its own cell. -/
theorem SplitInv.low_write (hI : SplitInv info halfbuff F false hu p s)
    (hl : info.lows halfbuff p ≠ []) (hx : info.stays halfbuff x)
    (hsx : s.array x = info.array x)
    (hfresh : (split_cells F (info.lows halfbuff p) ++
        split_cells info.records (info.highs halfbuff p) ++ [s.empty]).Nodup ∧
      ∀ j ∈ split_cells F (info.lows halfbuff p) ++
        split_cells info.records (info.highs halfbuff p) ++ [s.empty],
        j ≠ x ∧ (j ∉ p → j = info.records)) :
    SplitInv info halfbuff F true false (p ++ [x])
      { s with array := Function.update s.array s.gpos ⟨x, s.ptr_to_rec⟩,
               flag := flagOf true true (info.highs halfbuff p ≠ []) false, gpos := x,
               ptr_to_rec := (Function.update s.array s.gpos ⟨x, s.ptr_to_rec⟩ x).data } := by
  obtain ⟨hnd, hfr⟩ := hfresh
  have hg := hI.low.gpos_mem hl
  have hgx : s.gpos ≠ x := (hfr _ (List.mem_append_left _ (List.mem_append_left _ hg))).1
  have hgH : s.gpos ∉ split_cells info.records (info.highs halfbuff p) := fun h =>
    (List.nodup_append.1 (List.nodup_append.1 hnd).1).2.2 _ hg _ h rfl
  have hupd : ∀ j, j ≠ s.gpos → Function.update s.array s.gpos ⟨x, s.ptr_to_rec⟩ j = s.array j :=
    fun j hj => Function.update_of_ne hj _ _
  refine ⟨?_, by simp, ?_, ?_, ?_, ?_, ?_, ?_⟩
  · simp [HASH.lows_append_of_stays hx, HASH.highs_append_of_stays hx]
  · dsimp only
    rw [HASH.lows_append_of_stays hx, hupd x hgx.symm, hsx, List.getLast?_concat]
    exact hI.low.extend_write hl (List.nodup_append.1 (List.nodup_append.1 hnd).1).1 hgx.symm hsx
  · dsimp only
    rw [HASH.highs_append_of_stays hx]
    exact hI.high.other fun j hj => hupd j (ne_of_mem_of_not_mem hj hgH)
  · dsimp only
    have h : (p ++ [info.records]).Perm (split_cells F (info.lows halfbuff p) ++
        (split_cells info.records (info.highs halfbuff p) ++ [s.empty])) := by
      simpa using hI.cells
    rw [HASH.lows_append_of_stays hx, HASH.highs_append_of_stays hx, split_cells_append hl]
    simpa using perm_insert_cell h
  · intro h
    exact hI.empty_high (by rwa [HASH.highs_append_of_stays hx] at h)
  · intro h
    exact absurd h (by simp [HASH.lows_append_of_stays hx])
  · intro j hj hjN
    have hjp : j ∉ p := fun h => hj (List.mem_append_left _ h)
    have hjg : j ≠ s.gpos := by
      rintro rfl
      exact hjN ((hfr _ (List.mem_append_left _ (List.mem_append_left _ hg))).2 hjp)
    exact (hupd j hjg).trans (hI.frame j hjp hjN)

/-- A record that stays, after one that stays in its own cell: the old link leads to it
    already. -/
theorem SplitInv.low_used (hI : SplitInv info halfbuff F true false p s)
    (hc : Links.Chain info.next NO_RECORD F (p ++ x :: q))
    (hl : info.lows halfbuff p ≠ []) (hx : info.stays halfbuff x)
    (hsx : s.array x = info.array x) :
    SplitInv info halfbuff F true false (p ++ [x])
      { s with gpos := x, ptr_to_rec := (s.array x).data } where
  flag := by
    rw [hI.flag]
    simp [HASH.lows_append_of_stays hx, HASH.highs_append_of_stays hx, hl]
  not_both := by simp
  low := by
    dsimp only
    rw [HASH.lows_append_of_stays hx, hsx, List.getLast?_concat]
    exact hI.low.extend_used (fun y hy => hc.path.next_of_getLast? hy) hsx
  high := by
    dsimp only
    rw [HASH.highs_append_of_stays hx]
    exact hI.high.other fun _ _ => rfl
  cells := by
    dsimp only
    have h : (p ++ [info.records]).Perm (split_cells F (info.lows halfbuff p) ++
        (split_cells info.records (info.highs halfbuff p) ++ [s.empty])) := by
      simpa using hI.cells
    rw [HASH.lows_append_of_stays hx, HASH.highs_append_of_stays hx, split_cells_append hl]
    simpa using perm_insert_cell h
  empty_high h := hI.empty_high (by rwa [HASH.highs_append_of_stays hx] at h)
  empty_low h := absurd h (by simp [HASH.lows_append_of_stays hx])
  frame j hj hjN := hI.frame j (fun h => hj (List.mem_append_left _ h)) hjN

/-- The first record that moves: the high chain starts in the new cell, and the record's
    own cell is now the empty one. -/
theorem SplitInv.high_first (hI : SplitInv info halfbuff F lu false p s)
    (hh : info.highs halfbuff p = []) (hx : ¬info.stays halfbuff x)
    (hsx : s.array x = info.array x) (hxF : p = [] → x = F) :
    SplitInv info halfbuff F false false (p ++ [x])
      { s with flag := flagOf (info.lows halfbuff p ≠ []) false true false, gpos2 := s.empty,
               empty := x, ptr_to_rec2 := (s.array x).data } where
  flag := by simp [HASH.lows_append_of_not_stays hx, HASH.highs_append_of_not_stays hx]
  not_both := by simp
  low := by
    dsimp only
    rw [HASH.lows_append_of_not_stays hx]
    exact hI.low.other fun _ _ => rfl
  high := by
    dsimp only
    rw [HASH.highs_append_of_not_stays hx, hh, List.nil_append, hsx, hI.empty_high hh]
    exact SplitSide.start_moved
  cells := by
    dsimp only
    have h : (p ++ [info.records]).Perm
        (split_cells F (info.lows halfbuff p) ++ [info.records] ++ []) := by
      simpa [hh, hI.empty_high hh] using hI.cells
    rw [HASH.lows_append_of_not_stays hx, HASH.highs_append_of_not_stays hx, hh, List.nil_append,
      split_cells_singleton]
    exact perm_insert_cell h
  empty_high h := absurd h (by simp [HASH.highs_append_of_not_stays hx])
  empty_low h _ := by
    rw [HASH.lows_append_of_not_stays hx] at h
    exact hxF (HASH.eq_nil_of_lows_highs h hh)
  frame j hj hjN := hI.frame j (fun h => hj (List.mem_append_left _ h)) hjN

/-- A record that moves, after one that moves but waits: the waiting one is written to its
    cell, linked to this one, which keeps its own cell. -/
theorem SplitInv.high_write (hI : SplitInv info halfbuff F lu false p s)
    (hh : info.highs halfbuff p ≠ []) (hx : ¬info.stays halfbuff x)
    (hsx : s.array x = info.array x)
    (hfresh : (split_cells F (info.lows halfbuff p) ++
        split_cells info.records (info.highs halfbuff p) ++ [s.empty]).Nodup ∧
      ∀ j ∈ split_cells F (info.lows halfbuff p) ++
        split_cells info.records (info.highs halfbuff p) ++ [s.empty],
        j ≠ x ∧ (j ∉ p → j = info.records)) :
    SplitInv info halfbuff F false true (p ++ [x])
      { s with array := Function.update s.array s.gpos2 ⟨x, s.ptr_to_rec2⟩,
               flag := flagOf (info.lows halfbuff p ≠ []) false true true, gpos2 := x,
               ptr_to_rec2 := (Function.update s.array s.gpos2 ⟨x, s.ptr_to_rec2⟩ x).data } := by
  obtain ⟨hnd, hfr⟩ := hfresh
  have hg := hI.high.gpos_mem hh
  have hgx : s.gpos2 ≠ x := (hfr _ (List.mem_append_left _ (List.mem_append_right _ hg))).1
  have hgL : s.gpos2 ∉ split_cells F (info.lows halfbuff p) := fun h =>
    (List.nodup_append.1 (List.nodup_append.1 hnd).1).2.2 _ h _ hg rfl
  have hupd : ∀ j, j ≠ s.gpos2 → Function.update s.array s.gpos2 ⟨x, s.ptr_to_rec2⟩ j = s.array j :=
    fun j hj => Function.update_of_ne hj _ _
  refine ⟨?_, by simp, ?_, ?_, ?_, ?_, ?_, ?_⟩
  · simp [HASH.lows_append_of_not_stays hx, HASH.highs_append_of_not_stays hx]
  · dsimp only
    rw [HASH.lows_append_of_not_stays hx]
    exact hI.low.other fun j hj => hupd j (ne_of_mem_of_not_mem hj hgL)
  · dsimp only
    rw [HASH.highs_append_of_not_stays hx, hupd x hgx.symm, hsx, List.getLast?_concat]
    exact hI.high.extend_write hh (List.nodup_append.1 (List.nodup_append.1 hnd).1).2.1 hgx.symm hsx
  · dsimp only
    have h : (p ++ [info.records]).Perm (split_cells F (info.lows halfbuff p) ++
        split_cells info.records (info.highs halfbuff p) ++ [s.empty]) := hI.cells
    rw [HASH.lows_append_of_not_stays hx, HASH.highs_append_of_not_stays hx, split_cells_append hh]
    simpa using perm_insert_cell h
  · intro h
    exact absurd h (by simp [HASH.highs_append_of_not_stays hx])
  · intro h _
    exact hI.empty_low (by rwa [HASH.lows_append_of_not_stays hx] at h) hh
  · intro j hj hjN
    have hjp : j ∉ p := fun h => hj (List.mem_append_left _ h)
    have hjg : j ≠ s.gpos2 := by
      rintro rfl
      exact hjN ((hfr _ (List.mem_append_left _ (List.mem_append_right _ hg))).2 hjp)
    exact (hupd j hjg).trans (hI.frame j hjp hjN)

/-- A record that moves, after one that moves and is in its own cell. -/
theorem SplitInv.high_used (hI : SplitInv info halfbuff F false true p s)
    (hc : Links.Chain info.next NO_RECORD F (p ++ x :: q))
    (hh : info.highs halfbuff p ≠ []) (hx : ¬info.stays halfbuff x)
    (hsx : s.array x = info.array x) :
    SplitInv info halfbuff F false true (p ++ [x])
      { s with gpos2 := x, ptr_to_rec2 := (s.array x).data } where
  flag := by
    rw [hI.flag]
    simp [HASH.lows_append_of_not_stays hx, HASH.highs_append_of_not_stays hx, hh]
  not_both := by simp
  low := by
    dsimp only
    rw [HASH.lows_append_of_not_stays hx]
    exact hI.low.other fun _ _ => rfl
  high := by
    dsimp only
    rw [HASH.highs_append_of_not_stays hx, hsx, List.getLast?_concat]
    exact hI.high.extend_used (fun y hy => hc.path.next_of_getLast? hy) hsx
  cells := by
    dsimp only
    have h : (p ++ [info.records]).Perm (split_cells F (info.lows halfbuff p) ++
        split_cells info.records (info.highs halfbuff p) ++ [s.empty]) := hI.cells
    rw [HASH.lows_append_of_not_stays hx, HASH.highs_append_of_not_stays hx, split_cells_append hh]
    simpa using perm_insert_cell h
  empty_high h := absurd h (by simp [HASH.highs_append_of_not_stays hx])
  empty_low h _ := hI.empty_low (by rwa [HASH.lows_append_of_not_stays hx] at h) hh
  frame j hj hjN := hI.frame j (fun h => hj (List.mem_append_left _ h)) hjN

/-- **One turn of the split loop keeps the invariant**, and leaves the cell it stands on
    as it was, so that the loop goes on along the old link. -/
theorem SplitInv.step (hI : SplitInv info halfbuff F lu hu p s)
    (hc : Links.Chain info.next NO_RECORD F (p ++ x :: q))
    (hlt : ∀ j ∈ p ++ x :: q, j < info.records) :
    ∃ lu' hu', SplitInv info halfbuff F lu' hu' (p ++ [x])
        (my_hash_insert.split_step halfbuff s x (rec_hashnr info (s.array x).data)) ∧
      (my_hash_insert.split_step halfbuff s x (rec_hashnr info (s.array x).data)).array x =
        info.array x := by
  have hfresh := hI.cells_nodup hc hlt
  have hxp : x ∉ p := fun h =>
    (List.nodup_cons.1 (List.nodup_middle.1 hc.nodup)).1 (List.mem_append_left _ h)
  have hxN : x ≠ info.records := by
    have := hlt x (List.mem_append_right _ List.mem_cons_self)
    omega
  have hsx := hI.frame x hxp hxN
  rw [hsx]
  by_cases hx : info.stays halfbuff x
  · -- the record stays in the low chain
    obtain hl | hl := eq_or_ne (info.lows halfbuff p) []
    · have hlu : lu = false := by
        have h := hI.low
        rw [hl] at h
        exact h.used_of_nil
      subst hlu
      obtain hh | hh := eq_or_ne (info.highs halfbuff p) []
      · -- the first cell of the chain
        have hp := HASH.eq_nil_of_lows_highs hl hh
        subst hp
        have hhu : hu = false := by
          have h := hI.high
          rw [hh] at h
          exact h.used_of_nil
        subst hhu
        have hxF : x = F := (Links.chain_cons.1 hc).1.symm
        have hflag : s.flag = flagOf false false false false := by simpa using hI.flag
        rw [split_step_low_first hflag hx]
        exact ⟨true, false, by simpa using hI.low_first hx hxF hsx, hsx⟩
      · have hflag : s.flag = flagOf false false true hu := by simpa [hl, hh] using hI.flag
        rw [split_step_low_after_high hflag hx]
        exact ⟨false, false, hI.low_after_high hl hh hx hsx, hsx⟩
    · cases lu with
      | false =>
        have hflag : s.flag = flagOf true false (info.highs halfbuff p ≠ []) hu := by
          simpa [hl] using hI.flag
        have hgx : s.gpos ≠ x :=
          (hfresh.2 _ (List.mem_append_left _ (List.mem_append_left _ (hI.low.gpos_mem hl)))).1
        rw [split_step_low_write hflag hx]
        exact ⟨true, false, hI.low_write hl hx hsx hfresh,
          (Function.update_of_ne hgx.symm _ _).trans hsx⟩
      | true =>
        have hhu : hu = false := by
          cases hu
          · rfl
          · exact absurd ⟨rfl, rfl⟩ hI.not_both
        subst hhu
        have hflag : s.flag = flagOf true true (info.highs halfbuff p ≠ []) false := by
          simpa [hl] using hI.flag
        rw [split_step_low_used hflag hx]
        exact ⟨true, false, hI.low_used hc hl hx hsx, hsx⟩
  · -- the record moves to the high chain
    obtain hh | hh := eq_or_ne (info.highs halfbuff p) []
    · have hhu : hu = false := by
        have h := hI.high
        rw [hh] at h
        exact h.used_of_nil
      subst hhu
      have hflag : s.flag = flagOf (info.lows halfbuff p ≠ []) lu false false := by
        simpa [hh] using hI.flag
      rw [split_step_high_first hflag hx]
      refine ⟨false, false, hI.high_first hh hx hsx fun hp => ?_, hsx⟩
      subst hp
      exact (Links.chain_cons.1 hc).1.symm
    · cases hu with
      | false =>
        have hflag : s.flag = flagOf (info.lows halfbuff p ≠ []) lu true false := by
          simpa [hh] using hI.flag
        have hgx : s.gpos2 ≠ x :=
          (hfresh.2 _ (List.mem_append_left _ (List.mem_append_right _ (hI.high.gpos_mem hh)))).1
        rw [split_step_high_write hflag hx]
        exact ⟨false, true, hI.high_write hh hx hsx hfresh,
          (Function.update_of_ne hgx.symm _ _).trans hsx⟩
      | true =>
        have hlu : lu = false := by
          cases lu
          · rfl
          · exact absurd ⟨rfl, rfl⟩ hI.not_both
        subst hlu
        have hflag : s.flag = flagOf (info.lows halfbuff p ≠ []) false true true := by
          simpa [hh] using hI.flag
        rw [split_step_high_used hflag hx]
        exact ⟨false, true, hI.high_used hc hh hx hsx, hsx⟩

/-- One turn of the split loop: it does not stop, makes its step, and goes on along the
    old link of the cell it stands on. On its first turn the cell holds a record of the
    bucket; after that `flag` is not 0. -/
theorem split_loop_turn (hI : SplitInv info halfbuff F lu hu p s)
    (hc : Links.Chain info.next NO_RECORD F (p ++ x :: q))
    (hlt : ∀ j ∈ p ++ x :: q, j < info.records)
    (hfirst : p = [] →
      my_hash_mask (rec_hashnr info (info.array x).data) info.blength info.records = F)
    (f : Nat) :
    my_hash_insert.split_loop info halfbuff F (f + 1) x s =
      if (info.array x).next = NO_RECORD then
        my_hash_insert.split_step halfbuff s x (rec_hashnr info (s.array x).data)
      else my_hash_insert.split_loop info halfbuff F f (info.array x).next
        (my_hash_insert.split_step halfbuff s x (rec_hashnr info (s.array x).data)) := by
  have hxp : x ∉ p := fun h =>
    (List.nodup_cons.1 (List.nodup_middle.1 hc.nodup)).1 (List.mem_append_left _ h)
  have hxN : x ≠ info.records := by
    have := hlt x (List.mem_append_right _ List.mem_cons_self)
    omega
  have hsx := hI.frame x hxp hxN
  have hgo : ¬(s.flag = 0 ∧
      my_hash_mask (rec_hashnr info (s.array x).data) info.blength info.records ≠ F) := by
    rintro ⟨h0, hm⟩
    rcases eq_or_ne p [] with rfl | hp
    · exact hm (by rw [hsx]; exact hfirst rfl)
    · rw [hI.flag, flagOf_eq_zero] at h0
      simp only [decide_eq_false_iff_not, not_not] at h0
      exact hp (HASH.eq_nil_of_lows_highs h0.1 h0.2.2.1)
  obtain ⟨-, -, -, hx'⟩ := hI.step hc hlt
  rw [my_hash_insert.split_loop]
  dsimp only
  rw [if_neg hgo, hx']

/-- **The split loop keeps the invariant along the whole chain.** From the invariant
    after the cells `p`, the loop run from the next cell `x` ends with the invariant after
    the whole chain. -/
theorem split_loop_inv (hI : SplitInv info halfbuff F lu hu p s)
    (hc : Links.Chain info.next NO_RECORD F (p ++ x :: q))
    (hlt : ∀ j ∈ p ++ x :: q, j < info.records)
    (hfirst : p = [] →
      my_hash_mask (rec_hashnr info (info.array x).data) info.blength info.records = F)
    {fuel : Nat} (hfuel : q.length < fuel) :
    ∃ lu' hu', SplitInv info halfbuff F lu' hu' (p ++ x :: q)
      (my_hash_insert.split_loop info halfbuff F fuel x s) := by
  -- the induction is on the cells after `x`; each turn moves one cell from them to `p`
  induction q generalizing p x s lu hu fuel with
  | nil =>
    obtain ⟨f, rfl⟩ : ∃ f, fuel = f + 1 := ⟨fuel - 1, by simp at hfuel; omega⟩
    have hend : (info.array x).next = NO_RECORD := (Links.chain_concat.1 hc).2.1
    obtain ⟨lu', hu', hI', -⟩ := hI.step hc hlt
    rw [split_loop_turn hI hc hlt hfirst f, if_pos hend]
    exact ⟨lu', hu', hI'⟩
  | cons y q ih =>
    obtain ⟨f, rfl⟩ : ∃ f, fuel = f + 1 := ⟨fuel - 1, by omega⟩
    have hc' : Links.Chain info.next NO_RECORD F (p ++ [x] ++ y :: q) := by simpa using hc
    have hnext : (info.array x).next = y := hc'.path.next_of_getLast? (by simp)
    have hy : y ≠ NO_RECORD := fun h =>
      hc.not_mem (by rw [← h]; simp)
    obtain ⟨lu', hu', hI', -⟩ := hI.step hc hlt
    rw [split_loop_turn hI hc hlt hfirst f, if_neg (by rw [hnext]; exact hy), hnext]
    simpa using ih hI' hc' (by simpa using hlt) (fun h => absurd h (by simp))
      (by simp at hfuel; omega)

end invariant

/-! ## 5. After the loop -/

section finish

variable {info : HASH α K} {halfbuff F : Nat} {lu hu : Bool} {c : List Nat} {s : split_state α}

/-- The cells after `split_end`: each waiting record written to its cell, ending its chain. -/
theorem split_end_apply (s : split_state α) (j : Nat) :
    my_hash_insert.split_end s j =
      if s.flag &&& (HIGHFIND ||| HIGHUSED) = HIGHFIND ∧ j = s.gpos2 then
        ⟨NO_RECORD, s.ptr_to_rec2⟩
      else if s.flag &&& (LOWFIND ||| LOWUSED) = LOWFIND ∧ j = s.gpos then
        ⟨NO_RECORD, s.ptr_to_rec⟩
      else s.array j := by
  unfold my_hash_insert.split_end
  by_cases hh : s.flag &&& (HIGHFIND ||| HIGHUSED) = HIGHFIND <;>
    by_cases hl : s.flag &&& (LOWFIND ||| LOWUSED) = LOWFIND <;>
    simp [hh, hl, Function.update_apply]

/-- **After the loop** `split_end` has finished both chains: each one holds the records of
    its side in their order and ends with `NO_RECORD`, and every cell off the old chain and
    the new cell is as it was. -/
theorem SplitInv.finish (hI : SplitInv info halfbuff F lu hu c s)
    (hc : Links.Chain info.next NO_RECORD F c) (hlt : ∀ j ∈ c, j < info.records)
    (hN : info.records < NO_RECORD) :
    (info.lows halfbuff c ≠ [] →
      Links.Chain (fun j => (my_hash_insert.split_end s j).next) NO_RECORD F
        (split_cells F (info.lows halfbuff c)) ∧
      (split_cells F (info.lows halfbuff c)).map (fun j => (my_hash_insert.split_end s j).data) =
        (info.lows halfbuff c).map fun j => (info.array j).data) ∧
    (info.highs halfbuff c ≠ [] →
      Links.Chain (fun j => (my_hash_insert.split_end s j).next) NO_RECORD info.records
        (split_cells info.records (info.highs halfbuff c)) ∧
      (split_cells info.records (info.highs halfbuff c)).map
          (fun j => (my_hash_insert.split_end s j).data) =
        (info.highs halfbuff c).map fun j => (info.array j).data) ∧
    (∀ j, j ∉ c → j ≠ info.records → my_hash_insert.split_end s j = info.array j) := by
  have hpN : (c ++ [info.records]).Nodup := by
    refine List.nodup_append.2 ⟨hc.nodup, List.nodup_singleton _, fun a ha b hb => ?_⟩
    rw [List.mem_singleton] at hb
    have := hlt a ha
    omega
  have hnd := hI.cells.nodup_iff.1 hpN
  have hLH := (List.nodup_append.1 hnd).1
  have hdisj := (List.nodup_append.1 hLH).2.2
  have hin : ∀ j, j ∈ split_cells F (info.lows halfbuff c) ++
      split_cells info.records (info.highs halfbuff c) → j ∈ c ∨ j = info.records := fun j hj => by
    have := hI.cells.mem_iff.2 (List.mem_append_left _ hj)
    simpa using this
  have hnil : ∀ j, j ∈ split_cells F (info.lows halfbuff c) ++
      split_cells info.records (info.highs halfbuff c) → j ≠ NO_RECORD := fun j hj => by
    rcases hin j hj with hj | rfl
    · have := hlt j hj
      omega
    · omega
  have hend : ∀ y, c.getLast? = some y → (info.array y).next = NO_RECORD := fun y hy =>
    hc.path.next_of_getLast?_eq hy
  have hlowp : s.flag &&& (LOWFIND ||| LOWUSED) = LOWFIND ↔
      (info.lows halfbuff c ≠ [] ∧ lu = false) := by
    rw [hI.flag, flagOf_low_pending]
    simp
  have hhighp : s.flag &&& (HIGHFIND ||| HIGHUSED) = HIGHFIND ↔
      (info.highs halfbuff c ≠ [] ∧ hu = false) := by
    rw [hI.flag, flagOf_high_pending]
    simp
  -- the cell each chain's waiting record is written to is one of that chain's cells
  have hgL : info.lows halfbuff c ≠ [] → s.gpos ∈ split_cells F (info.lows halfbuff c) :=
    hI.low.gpos_mem
  have hgH : info.highs halfbuff c ≠ [] →
      s.gpos2 ∈ split_cells info.records (info.highs halfbuff c) :=
    hI.high.gpos_mem
  refine ⟨fun hl => ?_, fun hh => ?_, fun j hj hjN => ?_⟩
  · obtain ⟨hch, hdata⟩ := hI.low.finish hl (List.nodup_append.1 hLH).1
      (fun h => hnil _ (List.mem_append_left _ h) rfl) fun _ y hy => hend y hy
    have hagree : ∀ j ∈ split_cells F (info.lows halfbuff c), my_hash_insert.split_end s j =
        (if lu then s.array else Function.update s.array s.gpos ⟨NO_RECORD, s.ptr_to_rec⟩) j := by
      intro j hj
      have hj2 : ¬(s.flag &&& (HIGHFIND ||| HIGHUSED) = HIGHFIND ∧ j = s.gpos2) := by
        rintro ⟨hp, rfl⟩
        exact hdisj _ hj _ (hgH (hhighp.1 hp).1) rfl
      rw [split_end_apply, if_neg hj2]
      cases lu <;> simp [hlowp, hl, Function.update_apply]
    exact ⟨hch.congr fun j hj => by rw [hagree j hj],
      by rw [← hdata]; exact List.map_congr_left fun j hj => by rw [hagree j hj]⟩
  · -- the low chain's write is away from the high chain's cells
    set arr1 : Nat → HASH_LINK α := fun j =>
      if s.flag &&& (LOWFIND ||| LOWUSED) = LOWFIND ∧ j = s.gpos then ⟨NO_RECORD, s.ptr_to_rec⟩
      else s.array j with harr1
    have hside : SplitSide info.array arr1 info.records (info.highs halfbuff c) s.gpos2
        s.ptr_to_rec2 hu c.getLast? := by
      refine hI.high.congr fun j hj => if_neg ?_
      rintro ⟨hp, rfl⟩
      exact hdisj _ (hgL (hlowp.1 hp).1) _ hj rfl
    obtain ⟨hch, hdata⟩ := hside.finish hh (List.nodup_append.1 hLH).2.1
      (fun h => hnil _ (List.mem_append_right _ h) rfl) fun _ y hy => hend y hy
    have hagree : ∀ j ∈ split_cells info.records (info.highs halfbuff c),
        my_hash_insert.split_end s j =
          (if hu then arr1 else Function.update arr1 s.gpos2 ⟨NO_RECORD, s.ptr_to_rec2⟩) j := by
      intro j _
      rw [split_end_apply]
      cases hu <;> simp [harr1, hhighp, hh, Function.update_apply]
    exact ⟨hch.congr fun j hj => by rw [hagree j hj],
      by rw [← hdata]; exact List.map_congr_left fun j hj => by rw [hagree j hj]⟩
  · -- a cell off the chain and the new cell is neither chain's last
    have hoff : ∀ g, g ∈ split_cells F (info.lows halfbuff c) ++
        split_cells info.records (info.highs halfbuff c) → j ≠ g := by
      rintro g hg rfl
      rcases hin j hg with h | h
      · exact hj h
      · exact hjN h
    rw [split_end_apply, if_neg, if_neg, hI.frame j hj hjN]
    · rintro ⟨hp, rfl⟩
      exact hoff _ (List.mem_append_left _ (hgL (hlowp.1 hp).1)) rfl
    · rintro ⟨hp, rfl⟩
      exact hoff _ (List.mem_append_right _ (hgH (hhighp.1 hp).1)) rfl

end finish

/-! ## 6. The table after the split

After the split, the cells `0 .. records` but `empty` are linked into one chain per
bucket of the table with `records + 1` buckets: bucket `F`'s records that stay are in the
low chain, the others in the high chain of the new bucket `records`, and every other
bucket is as it was. -/

section table

variable {info : HASH α K} {halfbuff F e : Nat} {c : List Nat} {D : Nat → HASH_LINK α}

/-- **The table after the split**, from what the split did: the two chains built from the
    chain `c` of bucket `F`, the cells they and `empty` take, every other cell unchanged,
    and where the records go in the table with one bucket more. -/
theorem split_table (hW : info.Wf) (ad : α → Nat)
    (hc : ∀ j, j ∈ c ↔ j < info.records ∧ info.label j = F) (hcnd : c.Nodup)
    (hlow : info.lows halfbuff c ≠ [] →
      Links.Chain (fun j => (D j).next) NO_RECORD F (split_cells F (info.lows halfbuff c)) ∧
      (split_cells F (info.lows halfbuff c)).map (fun j => (D j).data) =
        (info.lows halfbuff c).map fun j => (info.array j).data)
    (hhigh : info.highs halfbuff c ≠ [] →
      Links.Chain (fun j => (D j).next) NO_RECORD info.records
        (split_cells info.records (info.highs halfbuff c)) ∧
      (split_cells info.records (info.highs halfbuff c)).map (fun j => (D j).data) =
        (info.highs halfbuff c).map fun j => (info.array j).data)
    (hframe : ∀ j, j ∉ c → j ≠ info.records → D j = info.array j)
    (hcells : (c ++ [info.records]).Perm (split_cells F (info.lows halfbuff c) ++
      split_cells info.records (info.highs halfbuff c) ++ [e]))
    (haddr : ∀ j < info.records, ad (info.array j).data =
      if info.label j = F then (if info.stays halfbuff j then F else info.records)
      else info.label j)
    (hFN : F ≠ info.records) :
    Links.Buckets (fun j => (D j).next) NO_RECORD (fun j => ad (D j).data)
      (fun j => j < info.records + 1 ∧ j ≠ e) ∧
    (((List.range (info.records + 1)).filter (· ≠ e)).map fun j => (D j).data).Perm
      info.elements := by
  set L := split_cells F (info.lows halfbuff c)
  set H := split_cells info.records (info.highs halfbuff c)
  have hpN : (c ++ [info.records]).Nodup := by
    refine List.nodup_append.2 ⟨hcnd, List.nodup_singleton _, fun a ha b hb => ?_⟩
    rw [List.mem_singleton] at hb
    have := ((hc a).1 ha).1
    omega
  have hnd := hcells.nodup_iff.1 hpN
  have hLH := (List.nodup_append.1 hnd).1
  have hdisj := (List.nodup_append.1 hLH).2.2
  have he : ∀ j ∈ L ++ H, j ≠ e := fun j hj hje =>
    (List.nodup_append.1 hnd).2.2 j hj e (List.mem_singleton_self _) hje
  have hmemLH : ∀ j, j ∈ c ∨ j = info.records ↔ j ∈ L ∨ j ∈ H ∨ j = e := fun j => by
    have := hcells.mem_iff (a := j)
    simpa [or_assoc] using this
  -- the bucket of the record in each kind of cell
  have hlabL : ∀ j ∈ L, ad (D j).data = F := by
    intro j hj
    have hl : info.lows halfbuff c ≠ [] := fun h => by simp [L, h] at hj
    obtain ⟨l, hl', hlj⟩ := List.mem_map.1 ((hlow hl).2 ▸ List.mem_map_of_mem hj)
    obtain ⟨hlc, hst⟩ := List.mem_filter.1 hl'
    obtain ⟨hlr, hlF⟩ := (hc l).1 hlc
    rw [← hlj, haddr l hlr, if_pos hlF, if_pos (by simpa using hst)]
  have hlabH : ∀ j ∈ H, ad (D j).data = info.records := by
    intro j hj
    have hh : info.highs halfbuff c ≠ [] := fun h => by simp [H, h] at hj
    obtain ⟨l, hl', hlj⟩ := List.mem_map.1 ((hhigh hh).2 ▸ List.mem_map_of_mem hj)
    obtain ⟨hlc, hst⟩ := List.mem_filter.1 hl'
    obtain ⟨hlr, hlF⟩ := (hc l).1 hlc
    rw [← hlj, haddr l hlr, if_pos hlF, if_neg (by simpa using hst)]
  have hlabO : ∀ j, j < info.records → j ∉ c →
      D j = info.array j ∧ ad (D j).data = info.label j ∧ info.label j ≠ F := by
    intro j hj hjc
    have hlF : info.label j ≠ F := fun h => hjc ((hc j).2 ⟨hj, h⟩)
    have hD := hframe j hjc (by omega)
    exact ⟨hD, by rw [hD, haddr j hj, if_neg hlF], hlF⟩
  -- every cell in use is in one of the chains or off the old chain
  have hclass : ∀ j, j < info.records + 1 → j ≠ e →
      j ∈ L ∨ j ∈ H ∨ (j < info.records ∧ j ∉ c) := by
    intro j hj hje
    by_cases hjc : j ∈ c ∨ j = info.records
    · rcases (hmemLH j).1 hjc with h | h | h
      · exact Or.inl h
      · exact Or.inr (Or.inl h)
      · exact absurd h hje
    · rw [not_or] at hjc
      exact Or.inr (Or.inr ⟨by omega, hjc.1⟩)
  have hliveLH : ∀ j ∈ L ++ H, j < info.records + 1 ∧ j ≠ e := by
    intro j hj
    refine ⟨?_, he j hj⟩
    rcases (hmemLH j).2 (List.mem_append.1 hj |>.elim Or.inl (Or.inr ∘ Or.inl)) with h | rfl
    · have := ((hc j).1 h).1
      omega
    · omega
  have hFr : F < info.records ∨ c = [] := by
    rcases c with _ | ⟨a, c⟩
    · exact Or.inr rfl
    · obtain ⟨ha, haF⟩ := (hc a).1 List.mem_cons_self
      exact Or.inl (haF ▸ (hW.buckets.label_label ha).1)
  refine ⟨fun i hi => ?_, ?_⟩
  · dsimp only at hi ⊢
    rcases hclass i hi.1 hi.2 with hiL | hiH | ⟨hir, hic⟩
    · -- a cell of the low chain
      have hl : info.lows halfbuff c ≠ [] := fun h => by simp [L, h] at hiL
      refine ⟨L, by rw [hlabL i hiL]; exact (hlow hl).1, fun j => ⟨fun hj => ?_, fun ⟨hj, hjl⟩ => ?_⟩⟩
      · exact ⟨hliveLH j (List.mem_append_left _ hj), by rw [hlabL j hj, hlabL i hiL]⟩
      · rw [hlabL i hiL] at hjl
        rcases hclass j hj.1 hj.2 with h | h | ⟨hjr, hjc⟩
        · exact h
        · exact absurd ((hlabH j h).symm.trans hjl) (Ne.symm hFN)
        · exact absurd ((hlabO j hjr hjc).2.1 ▸ hjl) (hlabO j hjr hjc).2.2
    · -- a cell of the high chain
      have hh : info.highs halfbuff c ≠ [] := fun h => by simp [H, h] at hiH
      refine ⟨H, by rw [hlabH i hiH]; exact (hhigh hh).1, fun j => ⟨fun hj => ?_, fun ⟨hj, hjl⟩ => ?_⟩⟩
      · exact ⟨hliveLH j (List.mem_append_right _ hj), by rw [hlabH j hj, hlabH i hiH]⟩
      · rw [hlabH i hiH] at hjl
        rcases hclass j hj.1 hj.2 with h | h | ⟨hjr, hjc⟩
        · exact absurd ((hlabL j h).symm.trans hjl) hFN
        · exact h
        · have hlt := (hW.buckets.label_label hjr).1
          rw [(hlabO j hjr hjc).2.1] at hjl
          omega
    · -- a cell off the old chain: its bucket's chain is as it was
      obtain ⟨hD, hlab, hlF⟩ := hlabO i hir hic
      obtain ⟨l, hl, hmem⟩ := hW.buckets i hir
      have hoff : ∀ j ∈ l, j < info.records ∧ j ∉ c := fun j hj => by
        obtain ⟨hjr, hjl⟩ := (hmem j).1 hj
        exact ⟨hjr, fun hjc => hlF (hjl ▸ ((hc j).1 hjc).2)⟩
      refine ⟨l, ?_, fun j => ⟨fun hj => ?_, fun ⟨hj, hjl⟩ => ?_⟩⟩
      · rw [hlab]
        exact hl.congr fun j hj => by rw [(hlabO j (hoff j hj).1 (hoff j hj).2).1]; rfl
      · obtain ⟨hjr, hjc⟩ := hoff j hj
        refine ⟨⟨by omega, fun hje => ?_⟩, ?_⟩
        · rcases (hmemLH j).2 (Or.inr (Or.inr hje)) with h | h
          · exact hjc h
          · omega
        · rw [(hlabO j hjr hjc).2.1, hlab]
          exact ((hmem j).1 hj).2
      · rw [hlab] at hjl
        rcases hclass j hj.1 hj.2 with h | h | ⟨hjr, hjc⟩
        · exact absurd ((hlabL j h).symm.trans hjl) (Ne.symm hlF)
        · have hlt := (hW.buckets.label_label hir).1
          rw [← hjl, hlabH j h] at hlt
          exact absurd hlt (lt_irrefl _)
        · exact (hmem j).2 ⟨hjr, (hlabO j hjr hjc).2.1 ▸ hjl⟩
  · -- the records: those off the old chain, and the old chain's in its two halves
    set O := (List.range info.records).filter (· ∉ c)
    have hlive : ((List.range (info.records + 1)).filter (· ≠ e)).Perm (O ++ (L ++ H)) := by
      refine (List.perm_ext_iff_of_nodup (List.nodup_range.filter _) ?_).2 fun j => ?_
      · refine List.Nodup.append (List.nodup_range.filter _) hLH fun j hjO hjLH => ?_
        obtain ⟨hjr, hjc⟩ := List.mem_filter.1 hjO
        rcases (hmemLH j).2 (List.mem_append.1 hjLH |>.elim Or.inl (Or.inr ∘ Or.inl)) with h | h
        · exact (by simpa using hjc : j ∉ c) h
        · simp at hjr
          omega
      · simp only [List.mem_filter, List.mem_range, List.mem_append, decide_eq_true_eq, O]
        constructor
        · rintro ⟨hj, hje⟩
          rcases hclass j hj hje with h | h | h
          · exact Or.inr (Or.inl h)
          · exact Or.inr (Or.inr h)
          · exact Or.inl h
        · rintro (⟨hj, hjc⟩ | h | h)
          · exact ⟨by omega, fun hje => hjc (by
              rcases (hmemLH j).2 (Or.inr (Or.inr hje)) with h | h
              · exact h
              · omega)⟩
          · exact hliveLH j (List.mem_append_left _ h)
          · exact hliveLH j (List.mem_append_right _ h)
    have hOdata : O.map (fun j => (D j).data) = O.map fun j => (info.array j).data :=
      List.map_congr_left fun j hj => by
        obtain ⟨hjr, hjc⟩ := List.mem_filter.1 hj
        rw [(hlabO j (by simpa using hjr) (by simpa using hjc)).1]
    have hLdata : L.map (fun j => (D j).data) = (info.lows halfbuff c).map fun j => (info.array j).data := by
      by_cases hl : info.lows halfbuff c = []
      · simp [L, hl]
      · exact (hlow hl).2
    have hHdata : H.map (fun j => (D j).data) = (info.highs halfbuff c).map fun j => (info.array j).data := by
      by_cases hh : info.highs halfbuff c = []
      · simp [H, hh]
      · exact (hhigh hh).2
    have hsides : (info.lows halfbuff c ++ info.highs halfbuff c).Perm c := by
      have := List.filter_append_perm (fun j => decide (info.stays halfbuff j)) c
      simpa [HASH.lows, HASH.highs] using this
    have hrange : (O ++ c).Perm (List.range info.records) := by
      refine (List.perm_ext_iff_of_nodup ?_ List.nodup_range).2 fun j => ?_
      · refine List.Nodup.append (List.nodup_range.filter _) hcnd fun j hjO hjc => ?_
        exact (by simpa using (List.mem_filter.1 hjO).2 : j ∉ c) hjc
      · simp only [List.mem_append, List.mem_filter, List.mem_range, decide_eq_true_eq, O]
        constructor
        · rintro (⟨hj, -⟩ | hj)
          · exact hj
          · exact ((hc j).1 hj).1
        · intro hj
          by_cases hjc : j ∈ c
          · exact Or.inr hjc
          · exact Or.inl ⟨hj, hjc⟩
    rw [HASH.elements]
    refine ((hlive.map _).trans ?_).trans (hrange.map _)
    rw [List.map_append, List.map_append, hOdata, hLdata, hHdata]
    have h' := (hsides.map fun j => (info.array j).data).append_left
      (O.map fun j => (info.array j).data)
    simpa only [List.map_append] using h'

/-- Where the records go in the table with one bucket more: those of bucket `F` whose bit
    `halfbuff` is clear stay, its others go to the new bucket `records`, and every other
    record stays where it was. -/
theorem HASH.Wf.insert_addr (hW : info.Wf) (hr : 0 < info.records) {j : Nat} (hj : j < info.records) :
    my_hash_mask (rec_hashnr info (info.array j).data) info.blength (info.records + 1) =
      if info.label j = info.records - (info.blength >>> 1) then
        (if info.stays (info.blength >>> 1) j then info.records - (info.blength >>> 1)
          else info.records)
      else info.label j := by
  obtain ⟨m, hm⟩ := hW.blength_pow
  -- with a record in it, the table's address space has at least two buckets
  obtain ⟨n, rfl⟩ : ∃ n, m = n + 1 := ⟨m - 1, by
    have := hW.records_lt
    cases m with
    | zero => simp at hm; omega
    | succ m => omega⟩
  have hhalf : info.blength >>> 1 = 2 ^ n := by
    rw [hm, Nat.shiftRight_one, Nat.pow_succ, Nat.mul_div_cancel _ (by norm_num)]
  have hnr : 2 ^ n ≤ info.records := by
    have := hW.half_le
    rw [hm, Nat.pow_succ, Nat.mul_div_cancel _ (by norm_num)] at this
    exact this
  have hrb : info.records < 2 ^ (n + 1) := hm ▸ hW.records_lt
  have hlab : info.label j = LinearHash.addr (rec_hashnr info (info.array j).data).toNat
      (2 ^ (n + 1)) info.records := by
    rw [HASH.label, HASH.addr, hm]
  rw [hhalf, my_hash_mask_eq hm (by omega), hm, LinearHash.addr_succ, ← hlab]
  by_cases hF : info.label j = info.records - 2 ^ n
  · rw [if_pos hF]
    have hsplit := LinearHash.mod_eq_iff_and hnr hrb (hlab ▸ hF)
    by_cases hst : info.stays (2 ^ n) j
    · rw [if_pos hst, if_neg (fun h => hsplit.1 h hst), hF]
    · rw [if_neg hst, if_pos (hsplit.2 hst)]
  · rw [if_neg hF, if_neg]
    intro hmod
    exact hF (hlab ▸ LinearHash.addr_of_mod_eq hnr hmod)

/-- **The split of `my_hash_insert`.** On a table that keeps the invariant, the split
    leaves one free cell `empty` among the cells `0 .. records`; the others are linked into
    one chain per bucket of the table with one bucket more, and hold the table's records. -/
theorem my_hash_insert.split_spec (hW : info.Wf) (hN : info.records < NO_RECORD) (record : α) :
    (my_hash_insert.split info record).1 < info.records + 1 ∧
    Links.Buckets (fun j => ((my_hash_insert.split info record).2 j).next) NO_RECORD
      (fun j => my_hash_mask (rec_hashnr info ((my_hash_insert.split info record).2 j).data)
        info.blength (info.records + 1))
      (fun j => j < info.records + 1 ∧ j ≠ (my_hash_insert.split info record).1) ∧
    (((List.range (info.records + 1)).filter (· ≠ (my_hash_insert.split info record).1)).map
      fun j => ((my_hash_insert.split info record).2 j).data).Perm info.elements := by
  rcases Nat.eq_zero_or_pos info.records with hr | hr
  · -- an empty table: `blength` is 1 and there is nothing to split
    have hb : info.blength >>> 1 = 0 := by
      have := hW.half_le
      rw [Nat.shiftRight_one]
      omega
    have hsplit : my_hash_insert.split info record = (info.records, info.array) := by
      simp [my_hash_insert.split, hb]
    rw [hsplit]
    refine ⟨by omega, fun i hi => by omega, ?_⟩
    simp [HASH.elements, hr]
  set halfbuff := info.blength >>> 1 with hhalf
  set F := info.records - halfbuff with hF
  have hhalf0 : 0 < halfbuff := by
    have := hW.records_lt
    obtain ⟨m, hm⟩ := hW.blength_pow
    rw [hhalf, Nat.shiftRight_one]
    cases m with
    | zero => simp at hm; omega
    | succ m => rw [hm, Nat.pow_succ, Nat.mul_div_cancel _ (by norm_num)]; exact Nat.two_pow_pos m
  have hFr : F < info.records := by omega
  have hFN : F ≠ info.records := by omega
  set s0 : split_state α := ⟨0, 0, 0, record, record, info.records, info.array⟩ with hs0
  have hsplit : my_hash_insert.split info record =
      ((my_hash_insert.split_loop info halfbuff F info.records F s0).empty,
        my_hash_insert.split_end (my_hash_insert.split_loop info halfbuff F info.records F s0)) := by
    rw [my_hash_insert.split]
    exact if_pos hFN
  rw [hsplit]
  dsimp only
  have haddr : ∀ j < info.records,
      my_hash_mask (rec_hashnr info (info.array j).data) info.blength (info.records + 1) =
      if info.label j = F then (if info.stays halfbuff j then F else info.records)
      else info.label j :=
    fun j hj => hW.insert_addr hr hj
  by_cases hlF : info.label F = F
  · -- bucket `F` is in use: the loop walks its chain
    obtain ⟨l, hl, hmem⟩ := hW.buckets F hFr
    rw [hlF] at hl hmem
    obtain ⟨q, rfl⟩ : ∃ q, l = F :: q := by
      cases l with
      | nil => exact absurd ((hmem F).2 ⟨hFr, hlF⟩) List.not_mem_nil
      | cons a q => exact ⟨q, by rw [(Links.chain_cons.1 hl).1]⟩
    have hlt : ∀ j ∈ F :: q, j < info.records := fun j hj => ((hmem j).1 hj).1
    have hlen := hl.length_le hlt
    have hI0 : SplitInv info halfbuff F false false [] s0 := SplitInv.init record
    obtain ⟨lu, hu, hI⟩ := split_loop_inv hI0 (by simpa using hl)
      (by simpa using hlt) (fun _ => (hW.rec_mask_eq hr F).trans hlF) (by simp at hlen; omega)
    rw [List.nil_append] at hI
    obtain ⟨hlow, hhigh, hframe⟩ := hI.finish hl hlt hN
    have he := hI.cells.mem_iff.2 (List.mem_append_right _ (List.mem_singleton_self _))
    refine ⟨?_, split_table hW
      (fun y => my_hash_mask (rec_hashnr info y) info.blength (info.records + 1)) hmem hl.nodup
      hlow hhigh hframe hI.cells haddr hFN⟩
    rcases List.mem_append.1 he with h | h
    · have := hlt _ h
      omega
    · rw [List.mem_singleton.1 h]
      omega
  · -- bucket `F` is empty: the loop stops on its first turn, and nothing is split
    obtain ⟨f, hf⟩ : ∃ f, info.records = f + 1 := ⟨info.records - 1, by omega⟩
    have hloop : my_hash_insert.split_loop info halfbuff F info.records F s0 = s0 := by
      rw [hf, my_hash_insert.split_loop]
      dsimp only
      rw [if_pos ⟨rfl, (hW.rec_mask_eq hr F).trans_ne hlF⟩]
    have hend : my_hash_insert.split_end s0 = info.array := by
      funext j
      rw [split_end_apply]
      simp [hs0, HIGHFIND, LOWFIND]
    rw [hloop, hend]
    have hc : ∀ j, j ∈ ([] : List Nat) ↔ j < info.records ∧ info.label j = F := fun j =>
      ⟨fun h => absurd h List.not_mem_nil,
        fun hj => absurd hj.2 (hW.buckets.label_ne_of_ne hlF hj.1)⟩
    refine ⟨by simp [hs0], split_table hW
      (fun y => my_hash_mask (rec_hashnr info y) info.blength (info.records + 1)) hc
      List.nodup_nil (fun h => absurd rfl h)
      (fun h => absurd rfl h) (fun _ _ _ => rfl) (by simp [hs0]) haddr hFN⟩

end table

/-! ## 7. Placing the new record

After the split the cells `0 .. records` but the free cell `e` are linked by bucket. The
new record goes to the cell `t` of its bucket. If `t` is the free cell, the record is
alone there; otherwise the record in `t` moves to `e`, and is linked behind the new record
when `t` heads its bucket, or relinked from its own chain otherwise. -/

section place

variable {m e t : Nat} (ad : α → Nat) {record : α} {D : Nat → HASH_LINK α}

/-- The cells of a bucket once the record of `t` moved to `e` and the new record took `t`. -/
theorem mem_after_place (D' : Nat → HASH_LINK α) (hte : t ≠ e) (ht : t < m) (he : e < m)
    (hD't : (D' t).data = record) (hD'e : (D' e).data = (D t).data)
    (hD'o : ∀ j, j ≠ e → j ≠ t → (D' j).data = (D j).data) {b c : Nat} :
    (b < m ∧ ad (D' b).data = c) ↔
      (b = t ∧ ad record = c) ∨ (b = e ∧ ad (D t).data = c) ∨
      (b ≠ t ∧ (b < m ∧ b ≠ e) ∧ ad (D b).data = c) := by
  by_cases hbt : b = t
  · subst hbt
    simp [hD't, ht, hte]
  by_cases hbe : b = e
  · subst hbe
    simp [hD'e, he, hbt]
  · simp [hD'o b hbe hbt, hbt, hbe]

variable (hD : Links.Buckets (fun j => (D j).next) NO_RECORD (fun j => ad (D j).data)
  (fun j => j < m ∧ j ≠ e))
include hD

/-- The new record's bucket is the free cell: the record takes it, alone in its chain. -/
theorem buckets_place_in_hole (he : e < m) (hm : m ≤ NO_RECORD) (hrec : ad record = e) :
    Links.Buckets (fun j => (Function.update D e ⟨NO_RECORD, record⟩ j).next) NO_RECORD
      (fun j => ad (Function.update D e ⟨NO_RECORD, record⟩ j).data) (· < m) := by
  have hD'o : ∀ j, j ≠ e → Function.update D e ⟨NO_RECORD, record⟩ j = D j :=
    fun j hj => Function.update_of_ne hj _ _
  have heN : e ≠ NO_RECORD := by omega
  refine hD.of_change (S := (· = e)) ?_ ?_ ?_
  · intro i hi hie
    rw [hie]
    refine ⟨[e], by simp [heN], fun b => ⟨fun hb => ?_, fun ⟨hb, hbl⟩ => ?_⟩⟩
    · rw [List.mem_singleton.1 hb]
      simp [he, hrec]
    · -- no cell of the table with a free cell is of the free cell's bucket
      by_contra hbe
      rw [List.mem_singleton] at hbe
      rw [hD'o b hbe] at hbl
      exact (hD.label_label ⟨hb, hbe⟩).1.2 hbl
  · intro b hb hbl
    have hbe : b ≠ e := by
      rintro rfl
      simp [hrec] at hbl
    rw [hD'o b hbe]
    exact ⟨⟨hb, hbe⟩, rfl⟩
  · rintro b ⟨hb, hbe⟩ -
    rw [hD'o b hbe]
    exact ⟨hb, rfl, rfl⟩

/-- The new record's bucket `t` heads a chain: the record in `t` moves to the free cell,
    and is linked behind the new record. -/
theorem buckets_place_at_head (he : e < m) (hm : m ≤ NO_RECORD) (ht : t < m) (hte : t ≠ e)
    (hrec : ad record = t) (htt : ad (D t).data = t) :
    Links.Buckets
      (fun j => (Function.update (Function.update D e (D t)) t ⟨e, record⟩ j).next) NO_RECORD
      (fun j => ad (Function.update (Function.update D e (D t)) t ⟨e, record⟩ j).data)
      (· < m) := by
  set D' := Function.update (Function.update D e (D t)) t ⟨e, record⟩ with hD'
  have hD't : D' t = ⟨e, record⟩ := by simp [hD']
  have hD'e : D' e = D t := by simp [hD', hte.symm]
  have hD'o : ∀ j, j ≠ e → j ≠ t → D' j = D j := fun j hje hjt => by simp [hD', hje, hjt]
  have hmem' := fun b c => mem_after_place ad D' (D := D) (b := b) (c := c) hte ht he
    (by rw [hD't]) (by rw [hD'e]) (fun j hje hjt => by rw [hD'o j hje hjt])
  -- the chain of bucket `t` before: `t`, then the rest
  obtain ⟨l, hl, hmem⟩ := hD t ⟨ht, hte⟩
  dsimp only at hl hmem
  rw [htt] at hl hmem
  obtain ⟨rest, rfl⟩ : ∃ rest, l = t :: rest := by
    cases l with
    | nil => exact absurd ((hmem t).2 ⟨⟨ht, hte⟩, htt⟩) List.not_mem_nil
    | cons a rest => exact ⟨rest, by rw [(Links.chain_cons.1 hl).1]⟩
  obtain ⟨-, htN, hrest⟩ := Links.chain_cons.1 hl
  have hrest_ne : ∀ b ∈ rest, b ≠ t ∧ b ≠ e := fun b hb =>
    ⟨fun h => (List.nodup_cons.1 hl.nodup).1 (h ▸ hb),
      ((hmem b).1 (List.mem_cons_of_mem _ hb)).1.2⟩
  refine hD.of_change (S := (· = t)) ?_ ?_ ?_
  · intro i hi hit
    rw [hit]
    refine ⟨t :: e :: rest, ?_, fun b => ?_⟩
    · have heN : e ≠ NO_RECORD := by omega
      refine Links.chain_cons.2 ⟨rfl, htN, Links.chain_cons.2 ⟨by simp [hD't], heN, ?_⟩⟩
      rw [hD'e]
      exact hrest.congr fun b hb => by rw [hD'o b (hrest_ne b hb).2 (hrest_ne b hb).1]
    · rw [hmem', List.mem_cons, List.mem_cons]
      constructor
      · rintro (rfl | rfl | hb)
        · exact Or.inl ⟨rfl, hrec⟩
        · exact Or.inr (Or.inl ⟨rfl, htt⟩)
        · exact Or.inr (Or.inr ⟨(hrest_ne b hb).1, (hmem b).1 (List.mem_cons_of_mem _ hb)⟩)
      · rintro (⟨rfl, -⟩ | ⟨rfl, -⟩ | ⟨hbt, hb⟩)
        · exact Or.inl rfl
        · exact Or.inr (Or.inl rfl)
        · exact Or.inr (Or.inr ((List.mem_cons.1 ((hmem b).2 hb)).resolve_left hbt))
  · intro b hb hbl
    -- both `t` and the free cell are now of bucket `t`
    have hbt : b ≠ t := by
      rintro rfl
      exact hbl (by rw [hD't, hrec])
    have hbe : b ≠ e := by
      rintro rfl
      exact hbl (by rw [hD'e, htt])
    rw [hD'o b hbe hbt]
    exact ⟨⟨hb, hbe⟩, rfl⟩
  · rintro b ⟨hb, hbe⟩ hbl
    have hbt : b ≠ t := by
      rintro rfl
      exact hbl htt
    rw [hD'o b hbe hbt]
    exact ⟨hb, rfl, rfl⟩

/-- The new record's bucket `t` is empty, and cell `t` holds a record of another bucket
    `g`: that record moves to the free cell, its predecessor in `g`'s chain is relinked to
    it there, and the new record is alone in its chain. -/
theorem buckets_place_moved (he : e < m) (hm : m ≤ NO_RECORD) (ht : t < m) (hte : t ≠ e)
    (hrec : ad record = t) (htt : ad (D t).data ≠ t) :
    Links.Buckets
      (fun j => (movelink (Function.update (Function.update D e (D t)) t ⟨NO_RECORD, record⟩)
        t (ad (D t).data) e m j).next) NO_RECORD
      (fun j => ad (movelink (Function.update (Function.update D e (D t)) t ⟨NO_RECORD, record⟩)
        t (ad (D t).data) e m j).data)
      (· < m) := by
  set g := ad (D t).data with hg
  set D₂ := Function.update (Function.update D e (D t)) t ⟨NO_RECORD, record⟩ with hD₂
  have hD₂o : ∀ j, j ≠ e → j ≠ t → D₂ j = D j := fun j hje hjt => by simp [hD₂, hje, hjt]
  -- the chain of bucket `g` runs `pre`, `p`, `t`, `post`
  obtain ⟨l, hl, hmem⟩ := hD t ⟨ht, hte⟩
  dsimp only at hl hmem
  obtain ⟨pre, p, post, rfl⟩ := hl.split_of_mem ((hmem t).2 ⟨⟨ht, hte⟩, rfl⟩) (Ne.symm htt)
  obtain ⟨hpre, hp, hpreN⟩ := Links.chain_append_cons.1 hl
  obtain ⟨-, hpN, hpt⟩ := Links.chain_cons.1 hp
  obtain ⟨hnextp, htN, hpost⟩ := Links.chain_cons.1 hpt
  obtain ⟨-, hnd2, hdisj⟩ := List.nodup_append.1 hl.nodup
  obtain ⟨hp_tl, htl⟩ := List.nodup_cons.1 hnd2
  have hpt' : p ≠ t := fun h => hp_tl (h ▸ List.mem_cons_self)
  have hpost_t : t ∉ post := (List.nodup_cons.1 htl).1
  have hlive : ∀ b ∈ pre ++ p :: t :: post, (b < m ∧ b ≠ e) ∧ ad (D b).data = g :=
    fun b hb => (hmem b).1 hb
  have hpe : p ≠ e := (hlive p (by simp)).1.2
  have hpg : ad (D p).data = g := (hlive p (by simp)).2
  have hpre_ne : ∀ q ∈ pre, q ≠ t ∧ q ≠ e ∧ q ≠ p := fun q hq =>
    ⟨hdisj q hq t (by simp), (hlive q (by simp [hq])).1.2, hdisj q hq p (by simp)⟩
  have hpost_ne : ∀ q ∈ post, q ≠ t ∧ q ≠ e ∧ q ≠ p := fun q hq =>
    ⟨fun h => hpost_t (h ▸ hq), (hlive q (by simp [hq])).1.2,
      fun h => hp_tl (List.mem_cons_of_mem _ (h ▸ hq))⟩
  -- `movelink` walks `pre` to `p` and links `p` to the free cell
  have hmove : movelink D₂ t g e m = Function.update D₂ p { D₂ p with next := e } := by
    refine movelink_eq (hpre.congr fun q hq => ?_) (fun q hq => ?_) ?_ ?_
    · rw [hD₂o q (hpre_ne q hq).2.1 (hpre_ne q hq).1]
    · rw [hD₂o q (hpre_ne q hq).2.1 (hpre_ne q hq).1]
      intro hqt
      have := hpre.next_mem hq
      rw [hqt, List.mem_append, List.mem_singleton] at this
      exact this.elim (fun h => (hpre_ne t h).1 rfl) (fun h => hpt' h.symm)
    · rw [hD₂o p hpe hpt']
      exact hnextp
    · have hlen := hl.length_le fun b hb => (hlive b hb).1.1
      simp only [List.length_append, List.length_cons] at hlen
      omega
  rw [hmove]
  set D' := Function.update D₂ p { D₂ p with next := e } with hD'
  have hD't : D' t = ⟨NO_RECORD, record⟩ := by simp [hD', hD₂, hpt'.symm]
  have hD'e : D' e = D t := by simp [hD', hD₂, hpe.symm, hte.symm]
  have hD'p : D' p = { D p with next := e } := by simp [hD', hD₂o p hpe hpt']
  have hD'o : ∀ j, j ≠ e → j ≠ t → j ≠ p → D' j = D j := fun j hje hjt hjp => by
    rw [hD', Function.update_of_ne hjp, hD₂o j hje hjt]
  have hD'data : ∀ j, j ≠ e → j ≠ t → (D' j).data = (D j).data := fun j hje hjt => by
    by_cases hjp : j = p
    · rw [hjp, hD'p]
    · rw [hD'o j hje hjt hjp]
  have hmem' := fun b c => mem_after_place ad D' (D := D) (b := b) (c := c)
    hte ht he (by rw [hD't]) (by rw [hD'e]) hD'data
  -- no cell of the table with a free cell is of bucket `t`
  have hnot_t : ∀ b, b < m → b ≠ e → ad (D b).data ≠ t := fun b hb hbe =>
    hD.label_ne_of_ne htt ⟨hb, hbe⟩
  have heN : e ≠ NO_RECORD := by omega
  refine hD.of_change (S := fun c => c = t ∨ c = g) ?_ ?_ ?_
  · rintro i hi (hit | hig)
    · -- bucket `t`: the new record alone
      rw [hit]
      refine ⟨[t], by simp [hD't, htN], fun b => ?_⟩
      rw [hmem', List.mem_singleton]
      constructor
      · rintro rfl
        exact Or.inl ⟨rfl, hrec⟩
      · rintro (⟨rfl, -⟩ | ⟨rfl, hgt⟩ | ⟨-, hb, hbt⟩)
        · rfl
        · exact absurd hgt htt
        · exact absurd hbt (hnot_t b hb.1 hb.2)
    · -- bucket `g`: the free cell in the place of `t`
      rw [hig]
      refine ⟨pre ++ p :: e :: post, ?_, fun b => ?_⟩
      · refine Links.chain_append_cons.2 ⟨hpre.congr fun q hq => ?_,
          Links.chain_cons.2 ⟨rfl, hpN, Links.chain_cons.2 ⟨by simp [hD'p], heN, ?_⟩⟩, hpreN⟩
        · rw [hD'o q (hpre_ne q hq).2.1 (hpre_ne q hq).1 (hpre_ne q hq).2.2]
        · rw [hD'e]
          exact hpost.congr fun q hq => by
            rw [hD'o q (hpost_ne q hq).2.1 (hpost_ne q hq).1 (hpost_ne q hq).2.2]
      · rw [hmem']
        simp only [List.mem_append, List.mem_cons]
        constructor
        · rintro (hb | rfl | rfl | hb)
          · exact Or.inr (Or.inr ⟨(hpre_ne b hb).1, hlive b (by simp [hb])⟩)
          · exact Or.inr (Or.inr ⟨hpt', hlive b (by simp)⟩)
          · exact Or.inr (Or.inl ⟨rfl, rfl⟩)
          · exact Or.inr (Or.inr ⟨(hpost_ne b hb).1, hlive b (by simp [hb])⟩)
        · rintro (⟨rfl, htg⟩ | ⟨rfl, -⟩ | ⟨hbt, hb⟩)
          · exact absurd (hrec.symm.trans htg).symm htt
          · exact Or.inr (Or.inr (Or.inl rfl))
          · have := (hmem b).2 hb
            simp only [List.mem_append, List.mem_cons] at this
            rcases this with h | h | h | h
            · exact Or.inl h
            · exact Or.inr (Or.inl h)
            · exact absurd h hbt
            · exact Or.inr (Or.inr (Or.inr h))
  · intro b hb hbl
    -- `t` is of bucket `t`, and the free cell of bucket `g`
    have hbt : b ≠ t := by
      rintro rfl
      exact hbl (Or.inl (by rw [hD't, hrec]))
    have hbe : b ≠ e := by
      rintro rfl
      exact hbl (Or.inr (by rw [hD'e]))
    rw [hD'data b hbe hbt]
    exact ⟨⟨hb, hbe⟩, rfl⟩
  · rintro b ⟨hb, hbe⟩ hbl
    have hbt : b ≠ t := by
      rintro rfl
      exact hbl (Or.inr rfl)
    have hbp : b ≠ p := by
      rintro rfl
      exact hbl (Or.inr hpg)
    rw [hD'o b hbe hbt hbp]
    exact ⟨hb, rfl, rfl⟩

end place

/-! ## 8. The insert -/

section insert

variable {info : HASH α K}

/-- **Placing the new record.** Into the table with a free cell that the split leaves,
    `place` puts the record so that all the cells `0 .. records` are linked by bucket;
    they hold the new record besides the old ones. -/
theorem my_hash_insert.place_spec (record : α) {e : Nat} {D : Nat → HASH_LINK α}
    (he : e < info.records + 1) (hN : info.records < NO_RECORD)
    (hlt : ∀ y, my_hash_mask (rec_hashnr info y) info.blength (info.records + 1) <
      info.records + 1)
    (hD : Links.Buckets (fun j => (D j).next) NO_RECORD
      (fun j => my_hash_mask (rec_hashnr info (D j).data) info.blength (info.records + 1))
      (fun j => j < info.records + 1 ∧ j ≠ e)) :
    Links.Buckets (fun j => (my_hash_insert.place info record e D j).next) NO_RECORD
      (fun j => my_hash_mask (rec_hashnr info (my_hash_insert.place info record e D j).data)
        info.blength (info.records + 1)) (· < info.records + 1) ∧
    ((List.range (info.records + 1)).map
      fun j => (my_hash_insert.place info record e D j).data).Perm
      (record :: ((List.range (info.records + 1)).filter (· ≠ e)).map fun j => (D j).data) := by
  have hm : info.records + 1 ≤ NO_RECORD := hN
  have ht := hlt record
  set ad := fun y => my_hash_mask (rec_hashnr info y) info.blength (info.records + 1)
  unfold my_hash_insert.place
  generalize hrec : my_hash_mask (rec_hashnr info record) info.blength (info.records + 1) = t
    at ht ⊢
  dsimp only
  by_cases hte : t = e
  · -- the record's bucket is the free cell
    subst hte
    rw [if_pos rfl]
    exact ⟨buckets_place_in_hole ad hD he hm hrec,
      map_data_perm_of_move ht he (by simp) (fun h => absurd rfl h)
        (fun j hje _ => by rw [Function.update_of_ne hje])⟩
  rw [if_neg hte]
  have hg : my_hash_rec_mask info (Function.update D e (D t) t) info.blength
      (info.records + 1) = my_hash_mask (rec_hashnr info (D t).data) info.blength
      (info.records + 1) := by
    rw [Function.update_of_ne hte]
    rfl
  rw [hg]
  by_cases htt : t = my_hash_mask (rec_hashnr info (D t).data) info.blength (info.records + 1)
  · -- cell `t` heads its chain
    rw [if_pos htt]
    exact ⟨buckets_place_at_head ad hD he hm ht hte hrec htt.symm,
      map_data_perm_of_move ht he (by simp) (fun _ => by simp [Ne.symm hte])
        (fun j hje hjt => by simp [hje, hjt])⟩
  · -- cell `t` holds a record of another bucket
    rw [if_neg htt]
    exact ⟨buckets_place_moved ad hD he hm ht hte hrec (Ne.symm htt),
      map_data_perm_of_move ht he (by simp) (fun _ => by simp [Ne.symm hte])
        (fun j hje hjt => by simp [hje, hjt])⟩

/-- With one record more, every hash value still has a bucket in use. -/
theorem HASH.Wf.mask_lt_succ (hW : info.Wf) (hashnr : UInt32) :
    my_hash_mask hashnr info.blength (info.records + 1) < info.records + 1 := by
  obtain ⟨n, hn⟩ := hW.blength_pow
  rw [my_hash_mask_eq hn (by omega)]
  exact LinearHash.addr_lt (by rw [hn]; exact Nat.two_pow_pos n)
    (le_trans hW.half_le (Nat.le_succ _)) (by omega)

/-- **The grown table keeps the invariant** once its cells `0 .. records` are linked by
    the buckets of the table with one bucket more: `blength` doubles when the records
    reach it, and that moves no record. -/
theorem HASH.Wf.insert_wf (hW : info.Wf) {array' : Nat → HASH_LINK α}
    (hB : Links.Buckets (fun j => (array' j).next) NO_RECORD
      (fun j => my_hash_mask (rec_hashnr info (array' j).data) info.blength (info.records + 1))
      (· < info.records + 1)) :
    ({ info with
        records := info.records + 1
        blength := if info.records + 1 = info.blength then info.blength + info.blength
          else info.blength
        array := array' } : HASH α K).Wf := by
  obtain ⟨n, hn⟩ := hW.blength_pow
  have hr := hW.records_lt
  have hhalf := hW.half_le
  have hb : 0 < info.blength := by omega
  -- the bucket of every record in the grown table is the one `hB` links it in
  have haddr : ∀ y : α, LinearHash.addr (rec_hashnr info y).toNat
      (if info.records + 1 = info.blength then info.blength + info.blength else info.blength)
      (info.records + 1) =
      my_hash_mask (rec_hashnr info y) info.blength (info.records + 1) := fun y => by
    rw [my_hash_mask_eq hn (by omega)]
    split_ifs with hfull
    · rw [hfull]
      exact LinearHash.addr_double hb
    · rfl
  refine ⟨?_, ?_, ?_, ?_⟩
  · split_ifs
    · exact ⟨n + 1, by rw [hn, Nat.pow_succ]; ring⟩
    · exact ⟨n, hn⟩
  · dsimp only
    split_ifs <;> omega
  · dsimp only
    split_ifs <;> omega
  · show Links.Buckets (fun j => (array' j).next) NO_RECORD
      (fun j => LinearHash.addr (rec_hashnr info (array' j).data).toNat
        (if info.records + 1 = info.blength then info.blength + info.blength else info.blength)
        (info.records + 1)) (· < info.records + 1)
    simp only [haddr]
    exact hB

/-- **`my_hash_insert` keeps the invariant.** Inserting into a table that keeps it gives a
    table that keeps it. A record refused as a duplicate leaves the table as it was; a
    record taken is stored besides the table's records. -/
theorem my_hash_insert_spec (hW : info.Wf) (hN : info.records < NO_RECORD) (record : α) :
    (my_hash_insert info record).2.Wf ∧
    ((my_hash_insert info record).1 = true → (my_hash_insert info record).2 = info) ∧
    ((my_hash_insert info record).1 = false →
      (my_hash_insert info record).2.elements.Perm (record :: info.elements)) := by
  unfold my_hash_insert
  split_ifs with hdup
  · exact ⟨hW, fun _ => rfl, fun h => by simp at h⟩
  obtain ⟨he, hD, hperm⟩ := my_hash_insert.split_spec hW hN record
  rcases hs : my_hash_insert.split info record with ⟨e, D⟩
  rw [hs] at he hD hperm
  dsimp only at he hD hperm ⊢
  obtain ⟨hB, hperm'⟩ := my_hash_insert.place_spec record he hN
    (fun y => hW.mask_lt_succ _) hD
  refine ⟨hW.insert_wf hB, fun h => by simp at h, fun _ => ?_⟩
  exact hperm'.trans (hperm.cons record)

/-- **The duplicate test of `my_hash_insert`.** With a hash function that agrees with the
    comparison of keys, an insert is refused exactly when the table is `HASH_UNIQUE` and
    holds a record with the new record's key. -/
theorem my_hash_insert_refused (hW : info.Wf) (hc : info.Compat) (record : α) :
    (my_hash_insert info record).1 = true ↔
      info.flags &&& HASH_UNIQUE ≠ 0 ∧
        ∃ x ∈ info.elements, info.key_eq (info.get_key x) (info.get_key record) = true := by
  rw [← my_hash_search_isSome hW hc]
  unfold my_hash_insert
  split_ifs with hdup
  · exact ⟨fun _ => hdup, fun _ => rfl⟩
  · exact ⟨fun h => by simp at h, fun h => absurd h hdup⟩

end insert

end AliSql
