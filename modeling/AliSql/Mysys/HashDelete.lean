import Mathlib
import AliSql.Mysys.Hash

/-!
# `my_hash_delete` keeps the invariant (`mysys/hash.c`)

`my_hash_delete` finds the record in the chain of its bucket, unlinks it, and then
empties the last cell, `records - 1`, into the cell the record left free, since the
table keeps its cells `0 .. records - 1`. Taking out the last cell takes out the last
bucket: its records go back to the bucket it was split from (`LinearHash.addr_pred`),
and the six ways the code moves the last record are the six ways that merge can meet the
free cell.

* `HASH.Wf.delete_addr`: where every record goes once the last bucket is taken out;
* `my_hash_delete.find_eq_some`, `my_hash_delete.find_eq_none`: the search loop walks the
  chain from the record's bucket;
* `my_hash_delete.unlink_spec`: after `unlink` (the source's "Remove link to record"),
  the cells but the free one are linked by bucket and hold the records but the deleted
  one;
* `my_hash_delete.move_last_spec`: `move_last` ("Move the last key") takes such a table
  with a free cell to a table of one cell less, linked by the buckets of the smaller
  table, each of its six branches a lemma of its own;
* `my_hash_delete_spec`: a delete of a record in the table leaves a table that keeps the
  invariant, with one copy of the record less; a delete of a record not in it fails and
  changes nothing.
-/

set_option autoImplicit false

namespace AliSql

variable {α K : Type}

/-! ## 1. Addresses once the last bucket is taken out -/

section addresses

variable {hash : HASH α K}

/-- The address space after a delete that leaves a record: a power of two `2 ^ (n + 1)`
    over at least `2 ^ n` buckets, in which the table's addresses are those of the table
    with its last bucket still in. -/
theorem HASH.Wf.delete_space (hW : hash.Wf) (hr : 1 < hash.records) :
    ∃ n, (if hash.records - 1 < hash.blength >>> 1 then hash.blength >>> 1 else hash.blength)
        = 2 ^ (n + 1) ∧ 2 ^ n ≤ hash.records - 1 ∧ hash.records - 1 < 2 ^ (n + 1) ∧
      ∀ hashnr : UInt32, my_hash_mask hashnr hash.blength hash.records =
        LinearHash.addr hashnr.toNat (2 ^ (n + 1)) (hash.records - 1 + 1) := by
  obtain ⟨m, hm⟩ := hW.blength_pow
  have hlt := hW.records_lt
  have hhalf := hW.half_le
  -- two records or more need an address space of four buckets or more
  obtain ⟨k, rfl⟩ : ∃ k, m = k + 2 := by
    refine ⟨m - 2, ?_⟩
    rcases m with _ | _ | m
    · simp at hm
      omega
    · simp at hm
      omega
    · omega
  have hk1 : 2 ^ (k + 1) = 2 * 2 ^ k := Nat.pow_succ' ..
  have hk2 : 2 ^ (k + 2) = 2 * 2 ^ (k + 1) := Nat.pow_succ' ..
  have hshift : hash.blength >>> 1 = 2 ^ (k + 1) := by
    rw [Nat.shiftRight_one, hm]
    omega
  have hmask : ∀ hashnr : UInt32, my_hash_mask hashnr hash.blength hash.records =
      LinearHash.addr hashnr.toNat (2 ^ (k + 2)) hash.records := fun hashnr => by
    rw [my_hash_mask_eq hm (by omega), hm]
  rw [hshift]
  split_ifs with hsmall
  · -- the table falls back to half its address space: `records` was its half
    have hrec : hash.records = 2 ^ (k + 1) := by
      rw [hm] at hhalf
      omega
    refine ⟨k, rfl, by omega, by omega, fun hashnr => ?_⟩
    have hsub : hash.records - 1 + 1 = 2 ^ (k + 1) := by omega
    rw [hmask, hsub, hrec, show 2 ^ (k + 2) = 2 ^ (k + 1) + 2 ^ (k + 1) by omega]
    exact LinearHash.addr_double (Nat.two_pow_pos _)
  · refine ⟨k + 1, hm, by omega, by omega, fun hashnr => ?_⟩
    rw [hmask, Nat.sub_add_cancel (by omega)]

/-- The bounds of the invariant hold of the table after a delete. -/
theorem HASH.Wf.delete_bounds (hW : hash.Wf) (hr : 0 < hash.records) :
    (∃ n, (if hash.records - 1 < hash.blength >>> 1 then hash.blength >>> 1
      else hash.blength) = 2 ^ n) ∧
    (if hash.records - 1 < hash.blength >>> 1 then hash.blength >>> 1 else hash.blength) / 2
      ≤ hash.records - 1 ∧
    hash.records - 1 <
      (if hash.records - 1 < hash.blength >>> 1 then hash.blength >>> 1 else hash.blength) := by
  rcases Nat.lt_or_ge 1 hash.records with hr1 | hr1
  · obtain ⟨n, hn, hlo, hhi, -⟩ := hW.delete_space hr1
    rw [hn, Nat.pow_succ, Nat.mul_div_cancel _ (by norm_num)]
    rw [Nat.pow_succ] at hhi
    exact ⟨⟨n + 1, rfl⟩, hlo, hhi⟩
  · -- one record: the table falls back to one bucket
    obtain ⟨m, hm⟩ := hW.blength_pow
    have hlt := hW.records_lt
    have hhalf := hW.half_le
    have hb : hash.blength = 2 := by
      rcases m with _ | _ | m
      · simp at hm
        omega
      · simpa using hm
      · rw [hm, Nat.pow_succ, Nat.pow_succ] at hhalf
        have := Nat.two_pow_pos m
        omega
    have hone : hash.records - 1 < hash.blength >>> 1 := by
      rw [hb, show hash.records - 1 = 0 by omega]
      decide
    rw [if_pos hone, hb]
    exact ⟨⟨0, rfl⟩, by omega, by omega⟩

/-- **Where the records go after a delete.** Those of the last bucket, `records - 1`, go
    back to the bucket it was split from; every other record keeps its bucket. -/
theorem HASH.Wf.delete_addr (hW : hash.Wf) (hr : 1 < hash.records) (hashnr : UInt32) :
    my_hash_mask hashnr
        (if hash.records - 1 < hash.blength >>> 1 then hash.blength >>> 1 else hash.blength)
        (hash.records - 1) =
      if my_hash_mask hashnr hash.blength hash.records = hash.records - 1 then
        hash.records - 1 -
          (if hash.records - 1 < hash.blength >>> 1 then hash.blength >>> 1
            else hash.blength) / 2
      else my_hash_mask hashnr hash.blength hash.records := by
  obtain ⟨n, hn, hlo, -, hold⟩ := hW.delete_space hr
  rw [hn, hold, my_hash_mask_eq (n := n + 1) rfl (by omega), LinearHash.addr_pred hlo,
    Nat.pow_succ, Nat.mul_div_cancel _ (by norm_num)]

end addresses

/-! ## 2. The search loop -/

section find

variable [DecidableEq α] {data : Nat → HASH_LINK α} {record : α} {i fuel : Nat}
  {gpos : Option Nat}

/-- The search loop stops at the first cell of the chain that holds `record`, with the
    cell before it. -/
theorem my_hash_delete.find_eq_some {p : Nat} {pre post : List Nat}
    (hl : Links.Chain (fun j => (data j).next) NO_RECORD i (pre ++ p :: post))
    (hpre : ∀ q ∈ pre, (data q).data ≠ record) (hp : (data p).data = record)
    (hfuel : pre.length < fuel) :
    my_hash_delete.find data record fuel gpos i = some (pre.getLast?.or gpos, p) := by
  induction pre generalizing i gpos fuel with
  | nil =>
    obtain ⟨rfl, -, -⟩ := Links.chain_cons.1 hl
    obtain ⟨f, rfl⟩ : ∃ f, fuel = f + 1 := ⟨fuel - 1, by simp at hfuel; omega⟩
    rw [my_hash_delete.find, if_pos hp]
    rfl
  | cons q pre ih =>
    obtain ⟨hiq, -, hl⟩ := Links.chain_cons.1 hl
    subst hiq
    obtain ⟨f, rfl⟩ : ∃ f, fuel = f + 1 := ⟨fuel - 1, by simp at hfuel; omega⟩
    -- the chain goes on after `i`, to `p` at least
    have hnext : (data i).next ≠ NO_RECORD := by
      intro h
      rw [h, Links.chain_nil_iff] at hl
      simp at hl
    rw [my_hash_delete.find, if_neg (hpre i List.mem_cons_self), if_neg hnext,
      ih hl (fun q hq => hpre q (List.mem_cons_of_mem _ hq)) (by simp at hfuel; omega)]
    cases h : pre.getLast? <;> simp [List.getLast?_cons, h]

/-- The search loop finds nothing on a chain without `record`. -/
theorem my_hash_delete.find_eq_none {l : List Nat}
    (hl : Links.Chain (fun j => (data j).next) NO_RECORD i l) (hne : l ≠ [])
    (hnone : ∀ q ∈ l, (data q).data ≠ record) (hfuel : l.length ≤ fuel) :
    my_hash_delete.find data record fuel gpos i = none := by
  induction l generalizing i gpos fuel with
  | nil => exact absurd rfl hne
  | cons q l ih =>
    obtain ⟨hiq, -, hl⟩ := Links.chain_cons.1 hl
    subst hiq
    obtain ⟨f, rfl⟩ : ∃ f, fuel = f + 1 := ⟨fuel - 1, by simp at hfuel; omega⟩
    rw [my_hash_delete.find, if_neg (hnone i List.mem_cons_self)]
    split_ifs with hnext
    · rfl
    · have hl' : l ≠ [] := by
        rintro rfl
        exact hnext (Links.chain_nil.1 hl)
      exact ih hl hl' (fun q hq => hnone q (List.mem_cons_of_mem _ hq))
        (by simp at hfuel; omega)

end find

/-! ## 3. Unlinking the record

The record is in cell `p` of the chain of its bucket `t`, after the cells `pre`. Unlinking
it leaves a table with one free cell: the cells below `records` but the free one are
linked by bucket, under the addresses of the table as it was. -/

section unlink

variable {hash : HASH α K} {t p : Nat} {pre post : List Nat}

/-- The hypotheses the three ways of unlinking share: the chain of bucket `t`, `p` in it
    after `pre`. -/
structure HASH.InChain (hash : HASH α K) (t : Nat) (pre : List Nat) (p : Nat)
    (post : List Nat) : Prop where
  wf : hash.Wf
  chain : Links.Chain hash.next NO_RECORD t (pre ++ p :: post)
  mem : ∀ j, j ∈ pre ++ p :: post ↔ j < hash.records ∧ hash.label j = t

theorem HASH.InChain.nodup (h : hash.InChain t pre p post) : (pre ++ p :: post).Nodup :=
  h.chain.nodup

theorem HASH.InChain.live (h : hash.InChain t pre p post) {j : Nat}
    (hj : j ∈ pre ++ p :: post) : j < hash.records ∧ hash.label j = t :=
  (h.mem j).1 hj

/-- The record is after other cells of its chain: the cell before it is linked past it. -/
theorem HASH.InChain.unlink_after {g : Nat} {pre' : List Nat}
    (h : hash.InChain t (pre' ++ [g]) p post) :
    Links.Buckets
      (fun j => (Function.update hash.array g { hash.array g with next := (hash.array p).next }
        j).next) NO_RECORD
      (fun j => hash.addr (Function.update hash.array g
        { hash.array g with next := (hash.array p).next } j).data)
      (fun j => j < hash.records ∧ j ≠ p) := by
  set D := Function.update hash.array g { hash.array g with next := (hash.array p).next }
  have hDg : D g = { hash.array g with next := (hash.array p).next } := by simp [D]
  have hDo : ∀ j, j ≠ g → D j = hash.array j := fun j hj => by simp [D, hj]
  have hDdata : ∀ j, (D j).data = (hash.array j).data := fun j => by
    by_cases hj : j = g
    · rw [hj, hDg]
    · rw [hDo j hj]
  have hl := h.chain
  rw [List.append_assoc, List.singleton_append] at hl
  obtain ⟨hpre, hg, hpreN⟩ := Links.chain_append_cons.1 hl
  obtain ⟨-, hgN, hgp⟩ := Links.chain_cons.1 hg
  obtain ⟨hnextg, hpN, hpost⟩ := Links.chain_cons.1 hgp
  have hnd := h.nodup
  rw [List.append_assoc, List.singleton_append] at hnd
  obtain ⟨-, hnd2, hdisj⟩ := List.nodup_append.1 hnd
  obtain ⟨hg_tl, hptl⟩ := List.nodup_cons.1 hnd2
  have hpre_g : ∀ q ∈ pre', q ≠ g := fun q hq => hdisj q hq g List.mem_cons_self
  have hpost_g : ∀ q ∈ post, q ≠ g := fun q hq hqg =>
    hg_tl (List.mem_cons_of_mem _ (hqg ▸ hq))
  have hmem : ∀ j, j ∈ pre' ++ g :: p :: post ↔ j < hash.records ∧ hash.label j = t :=
    fun j => by rw [← h.mem j, List.append_assoc, List.singleton_append]
  have hgt : hash.label g = t := ((hmem g).1 (by simp)).2
  have hpt : hash.label p = t := ((hmem p).1 (by simp)).2
  have hpg : p ≠ g := fun hpg => hg_tl (hpg ▸ List.mem_cons_self)
  refine h.wf.buckets.of_change (S := (· = t)) ?_ ?_ ?_
  · -- bucket `t`: its chain without `p`
    intro i _ hit
    simp only [hDdata] at hit ⊢
    change hash.label i = t at hit
    rw [show hash.addr (hash.array i).data = hash.label i from rfl, hit]
    refine ⟨pre' ++ g :: post, ?_, fun b => ?_⟩
    · refine Links.chain_append_cons.2 ⟨hpre.congr fun q hq => ?_,
        Links.chain_cons.2 ⟨rfl, hgN, ?_⟩, hpreN⟩
      · rw [hDo q (hpre_g q hq)]
        rfl
      · rw [hDg]
        exact hpost.congr fun q hq => by rw [hDo q (hpost_g q hq)]; rfl
    · change b ∈ pre' ++ g :: post ↔ (b < hash.records ∧ b ≠ p) ∧ hash.label b = t
      constructor
      · intro hb
        have hb' : b ∈ pre' ++ g :: p :: post := by
          simp only [List.mem_append, List.mem_cons] at hb ⊢
          tauto
        obtain ⟨hbr, hbt⟩ := (hmem b).1 hb'
        refine ⟨⟨hbr, ?_⟩, hbt⟩
        rintro rfl
        simp only [List.mem_append, List.mem_cons] at hb
        rcases hb with hb | hb | hb
        · exact hdisj b hb b (List.mem_cons_of_mem _ List.mem_cons_self) rfl
        · exact hpg hb
        · exact (List.nodup_cons.1 hptl).1 hb
      · rintro ⟨⟨hbr, hbp⟩, hbt⟩
        have hb := (hmem b).2 ⟨hbr, hbt⟩
        simp only [List.mem_append, List.mem_cons] at hb ⊢
        rcases hb with hb | hb | hb | hb
        · exact Or.inl hb
        · exact Or.inr (Or.inl hb)
        · exact absurd hb hbp
        · exact Or.inr (Or.inr hb)
  · rintro b ⟨hbr, -⟩ hbt
    exact ⟨hbr, by rw [hDdata]; rfl⟩
  · rintro b hbr hbt
    have hbg : b ≠ g := by
      rintro rfl
      exact hbt hgt
    have hbp : b ≠ p := by
      rintro rfl
      exact hbt hpt
    refine ⟨⟨hbr, hbp⟩, by rw [hDdata]; rfl, by rw [hDo b hbg]; rfl⟩

/-- The record heads its chain and the chain goes on: the next record moves up into its
    cell, and the cell of the next record is left free. -/
theorem HASH.InChain.unlink_head_next {n : Nat} {post' : List Nat}
    (h : hash.InChain t [] t (n :: post')) :
    Links.Buckets (fun j => (Function.update hash.array t (hash.array n) j).next) NO_RECORD
      (fun j => hash.addr (Function.update hash.array t (hash.array n) j).data)
      (fun j => j < hash.records ∧ j ≠ n) := by
  set D := Function.update hash.array t (hash.array n)
  have hDt : D t = hash.array n := by simp [D]
  have hDo : ∀ j, j ≠ t → D j = hash.array j := fun j hj => by simp [D, hj]
  have hl := h.chain
  obtain ⟨-, htN, htn⟩ := Links.chain_cons.1 hl
  obtain ⟨-, -, hpost⟩ := Links.chain_cons.1 htn
  have hnd := h.nodup
  rw [List.nil_append] at hnd
  obtain ⟨ht_tl, hntl⟩ := List.nodup_cons.1 hnd
  have hmem : ∀ j, j ∈ t :: n :: post' ↔ j < hash.records ∧ hash.label j = t := h.mem
  have hnt : hash.label n = t := ((hmem n).1 (by simp)).2
  have htn' : t ≠ n := fun h' => ht_tl (h' ▸ List.mem_cons_self)
  -- the labels of the cells: `t` holds the record of `n`, of bucket `t`
  have hlab : ∀ j, hash.addr (D j).data = if j = t then t else hash.label j := fun j => by
    by_cases hj : j = t
    · rw [if_pos hj, hj, hDt]
      exact hnt
    · rw [if_neg hj, hDo j hj]
      rfl
  refine h.wf.buckets.of_change (S := (· = t)) ?_ ?_ ?_
  · -- bucket `t`: the chain without the cell of `n`
    intro i _ hit
    rw [hit]
    refine ⟨t :: post', Links.chain_cons.2 ⟨rfl, htN, ?_⟩, fun b => ?_⟩
    · rw [hDt]
      exact hpost.congr fun q hq => by
        rw [hDo q fun hqt => ht_tl (hqt ▸ List.mem_cons_of_mem _ hq)]
        rfl
    · rw [hlab b, List.mem_cons]
      constructor
      · rintro (rfl | hb)
        · exact ⟨⟨((hmem b).1 List.mem_cons_self).1, htn'⟩, if_pos rfl⟩
        · have hbt : b ≠ t := fun hbt => ht_tl (hbt ▸ List.mem_cons_of_mem _ hb)
          obtain ⟨hbr, hbl⟩ := (hmem b).1 (by simp [hb])
          exact ⟨⟨hbr, fun hbn => (List.nodup_cons.1 hntl).1 (hbn ▸ hb)⟩,
            by rw [if_neg hbt, hbl]⟩
      · rintro ⟨⟨hbr, hbn⟩, hbl⟩
        by_cases hbt : b = t
        · exact Or.inl hbt
        · rw [if_neg hbt] at hbl
          have hb := (hmem b).2 ⟨hbr, hbl⟩
          simp only [List.mem_cons] at hb
          rcases hb with hb | hb | hb
          · exact absurd hb hbt
          · exact absurd hb hbn
          · exact Or.inr hb
  · rintro b ⟨hbr, -⟩ hbt
    have hbt' : b ≠ t := by
      rintro rfl
      rw [hlab, if_pos rfl] at hbt
      exact hbt rfl
    rw [hlab b, if_neg hbt'] at hbt ⊢
    exact ⟨hbr, rfl⟩
  · rintro b hbr hbt
    have hbt' : b ≠ t := by
      rintro rfl
      exact hbt ((hmem b).1 List.mem_cons_self).2
    have hbn : b ≠ n := by
      rintro rfl
      exact hbt hnt
    refine ⟨⟨hbr, hbn⟩, by rw [hlab b, if_neg hbt'], by rw [hDo b hbt']; rfl⟩

/-- The record is alone in its chain: its cell is left free, and its bucket empty. -/
theorem HASH.InChain.unlink_head_alone (h : hash.InChain t [] t []) :
    Links.Buckets (fun j => (hash.array j).next) NO_RECORD (fun j => hash.addr (hash.array j).data)
      (fun j => j < hash.records ∧ j ≠ t) := by
  refine h.wf.buckets.of_change (S := (· = t)) ?_ ?_ ?_
  · rintro i ⟨hir, hit⟩ hlab
    have := (h.mem i).2 ⟨hir, hlab⟩
    simp only [List.nil_append, List.mem_singleton] at this
    exact absurd this hit
  · rintro b ⟨hbr, -⟩ -
    exact ⟨hbr, rfl⟩
  · rintro b hbr hbt
    have hbt' : b ≠ t := by
      rintro rfl
      exact hbt (h.live (by simp)).2
    exact ⟨⟨hbr, hbt'⟩, rfl, rfl⟩

/-- The records of a table with one free cell `E`, taken from a table whose cell `p`
    held the deleted record: the table's records with that one taken out. -/
theorem perm_erase_of_move [DecidableEq α] {E : Nat} {D : Nat → HASH_LINK α}
    (hp : p < hash.records) (hE : E < hash.records)
    (hD'e : p ≠ E → (hash.array E).data = (D p).data)
    (hD'o : ∀ j, j ≠ E → j ≠ p → (hash.array j).data = (D j).data) :
    (((List.range hash.records).filter (· ≠ E)).map fun j => (D j).data).Perm
      (hash.elements.erase (hash.array p).data) :=
  (List.cons_perm_iff_perm_erase.1 (map_data_perm_of_move hp hE rfl hD'e hD'o).symm).2

/-- **Unlinking the record** leaves a table with one free cell `E` below `records`, the
    others linked by bucket and holding the records but the deleted one. -/
theorem HASH.InChain.unlink_spec [DecidableEq α] (h : hash.InChain t pre p post) {E : Nat}
    {D : Nat → HASH_LINK α} (hu : my_hash_delete.unlink hash.array pre.getLast? p = (E, D)) :
    E < hash.records ∧
    Links.Buckets (fun j => (D j).next) NO_RECORD (fun j => hash.addr (D j).data)
      (fun j => j < hash.records ∧ j ≠ E) ∧
    (((List.range hash.records).filter (· ≠ E)).map fun j => (D j).data).Perm
      (hash.elements.erase (hash.array p).data) := by
  have hpr : p < hash.records := (h.live (by simp)).1
  rcases List.eq_nil_or_concat pre with rfl | ⟨pre', g, rfl⟩
  · -- the record heads its chain
    obtain ⟨hpt, -, hpost⟩ := Links.chain_cons.1 h.chain
    subst hpt
    by_cases hnext : (hash.array t).next = NO_RECORD
    · have hpost' : post = [] := by
        change Links.Chain hash.next NO_RECORD (hash.array t).next post at hpost
        rwa [hnext, Links.chain_nil_iff] at hpost
      subst hpost'
      simp only [my_hash_delete.unlink, List.getLast?_nil, hnext, ne_eq, not_true_eq_false,
        if_false, Prod.mk.injEq] at hu
      obtain ⟨rfl, rfl⟩ := hu
      exact ⟨hpr, h.unlink_head_alone,
        perm_erase_of_move hpr hpr (fun h' => absurd rfl h') (fun _ _ _ => rfl)⟩
    · obtain ⟨n, post', rfl⟩ : ∃ n post', post = n :: post' := by
        cases post with
        | nil =>
          change Links.Chain hash.next NO_RECORD (hash.array t).next [] at hpost
          exact absurd (Links.chain_nil.1 hpost) hnext
        | cons n post' => exact ⟨n, post', rfl⟩
      have hn : (hash.array t).next = n := (Links.chain_cons.1 hpost).1
      have hu' : my_hash_delete.unlink hash.array ([] : List Nat).getLast? t =
          (n, Function.update hash.array t (hash.array n)) := by
        simp only [my_hash_delete.unlink, List.getLast?_nil]
        rw [if_pos hnext, hn]
      rw [hu', Prod.mk.injEq] at hu
      obtain ⟨rfl, rfl⟩ := hu
      have hnr : (hash.array t).next < hash.records := by
        rw [hn]
        exact (h.live (by simp)).1
      rw [hn] at hnr
      refine ⟨hnr, h.unlink_head_next, ?_⟩
      refine perm_erase_of_move hpr hnr (fun _ => by simp) (fun j hjn hjt => ?_)
      rw [Function.update_of_ne hjt]
  · -- the record is after the cell `g`
    rw [List.concat_eq_append] at h hu
    have hu' : my_hash_delete.unlink hash.array (pre' ++ [g]).getLast? p =
        (p, Function.update hash.array g { hash.array g with next := (hash.array p).next }) := by
      rw [List.getLast?_concat]
      rfl
    rw [hu', Prod.mk.injEq] at hu
    obtain ⟨rfl, rfl⟩ := hu
    refine ⟨hpr, h.unlink_after, perm_erase_of_move hpr hpr (fun h' => absurd rfl h')
      (fun j _ _ => ?_)⟩
    by_cases hjg : j = g
    · subst hjg
      simp
    · rw [Function.update_of_ne hjg]

/-- When unlinking leaves the record's own cell free, that cell is as it was. -/
theorem HASH.InChain.unlink_free_self (h : hash.InChain t pre p post) {E : Nat}
    {D : Nat → HASH_LINK α} (hu : my_hash_delete.unlink hash.array pre.getLast? p = (E, D))
    (hE : E = p) : D p = hash.array p := by
  rcases List.eq_nil_or_concat pre with rfl | ⟨pre', g, rfl⟩
  · simp only [my_hash_delete.unlink, List.getLast?_nil] at hu
    split_ifs at hu with hnext
    · -- the record's successor is another cell
      obtain ⟨rfl, -⟩ := Prod.mk.inj hu
      obtain ⟨-, -, hpost⟩ := Links.chain_cons.1 h.chain
      change Links.Chain hash.next NO_RECORD (hash.array p).next post at hpost
      rw [hE] at hpost
      cases post with
      | nil => exact absurd (Links.chain_nil.1 hpost) (hE ▸ hnext)
      | cons a post =>
        obtain rfl := (Links.chain_cons.1 hpost).1
        exact absurd List.mem_cons_self (List.nodup_cons.1 h.nodup).1
    · obtain ⟨-, rfl⟩ := Prod.mk.inj hu
      rfl
  · rw [List.concat_eq_append] at h hu
    rw [List.getLast?_concat] at hu
    obtain ⟨-, rfl⟩ := Prod.mk.inj hu
    have hgp : p ≠ g := by
      intro hpg
      have := h.nodup
      rw [List.append_assoc, List.singleton_append, hpg] at this
      exact (List.nodup_cons.1 (List.nodup_append.1 this).2.1).1 List.mem_cons_self
    exact Function.update_of_ne hgp _ _

end unlink

/-! ## 4. Moving the last record

`move_last` starts from the table with one free cell `E` that `unlink` leaves, with cells
`0 .. r` linked by the old addresses `oad`, and ends with cells `0 .. r - 1` linked by
the new addresses `nad`: a record of the last bucket `r` goes to bucket `F`, any other
keeps its bucket. Each branch touches a few cells `T` (the free cell and the last one
among them) and rebuilds the chains of a few buckets `S`; `buckets_move_frame` carries
every other chain over. -/

section merge

/-- `merge` changes links only, once the last cell is copied to the free one. -/
@[simp] theorem merge_data (D : Nat → HASH_LINK α) (lastpos E P idx records j : Nat) :
    (my_hash_delete.merge D lastpos E P idx records j).data =
      (Function.update D E (D lastpos) j).data := by
  simp only [my_hash_delete.merge]
  by_cases hj : j = P
  · subst hj
    simp
  · rw [Function.update_of_ne hj, movelink_data]

/-- **Merging a chain into `P`'s.** `merge` copies the last cell `r` to the free cell `E`,
    walks from there along `pre` to the cell `q` that links to `idx` and links `q` to what
    `P` linked to, and links `P` to `E`: the chain from `P` runs through `E`, `pre` and `q`,
    and then goes on as `P`'s did. Only the links of `P` and `q` change, and no record. -/
theorem merge_chain {D : Nat → HASH_LINK α} {r E P idx q : Nat} {pre tail : List Nat}
    (hPE : P ≠ E)
    (hw : Links.Path (fun j => (Function.update D E (D r) j).next) E (pre ++ [q]) idx)
    (hnd : (pre ++ [q]).Nodup) (hidx : idx ∉ pre ++ [q]) (hP : P ∉ pre ++ [q])
    (hfuel : pre.length < r)
    (htail : Links.Chain (fun j => (D j).next) NO_RECORD (D P).next tail)
    (htail' : ∀ j ∈ tail, j ≠ E ∧ j ≠ P ∧ j ≠ q)
    (hPN : P ≠ NO_RECORD) (hwN : NO_RECORD ∉ pre ++ [q]) :
    Links.Chain (fun j => (my_hash_delete.merge D r E P idx r j).next) NO_RECORD P
      (P :: (pre ++ q :: tail)) ∧
    (∀ j, j ≠ P → j ≠ q → my_hash_delete.merge D r E P idx r j = Function.update D E (D r) j) := by
  set D₁ := Function.update D E (D r) with hD₁
  have hD₁o : ∀ j, j ≠ E → D₁ j = D j := fun j hj => by simp [hD₁, hj]
  obtain ⟨hpre, hq⟩ := Links.path_concat.1 hw
  have hPq : P ≠ q := fun h => hP (h ▸ by simp)
  have hpre_q : q ∉ pre := fun h => (List.nodup_append.1 hnd).2.2 q h q (by simp) rfl
  have hmove : movelink D₁ idx E (D₁ P).next r =
      Function.update D₁ q { D₁ q with next := (D₁ P).next } :=
    movelink_eq hpre (fun c hc hcidx => hidx (hcidx ▸ hpre.next_mem hc)) hq hfuel
  have hmerge : my_hash_delete.merge D r E P idx r =
      Function.update (Function.update D₁ q { D₁ q with next := (D P).next }) P
        { D P with next := E } := by
    simp only [my_hash_delete.merge]
    rw [← hD₁, hmove, hD₁o P hPE, Function.update_of_ne hPq, hD₁o P hPE]
  rw [hmerge]
  refine ⟨Links.chain_cons.2 ⟨rfl, hPN, ?_⟩, fun j hjP hjq => ?_⟩
  · simp only [Function.update_self]
    refine Links.chain_append_cons.2 ⟨hpre.congr fun c hc => ?_,
      Links.chain_cons.2 ⟨rfl, fun h => hwN (h ▸ by simp), ?_⟩,
      fun h => hwN (List.mem_append_left _ h)⟩
    · have hcP : c ≠ P := fun h => hP (List.mem_append_left _ (h ▸ hc))
      have hcq : c ≠ q := fun h => hpre_q (h ▸ hc)
      simp [hcP, hcq]
    · simp only [Function.update_of_ne (Ne.symm hPq), Function.update_self]
      exact htail.congr fun c hc => by
        obtain ⟨hcE, hcP, hcq⟩ := htail' c hc
        simp [hcP, hcq, hD₁o c hcE]
  · rw [Function.update_of_ne hjP, Function.update_of_ne hjq]

end merge

section move

variable (oad nad : α → Nat) {r E F : Nat} {D : Nat → HASH_LINK α}
  (hH : Links.Buckets (fun j => (D j).next) NO_RECORD (fun j => oad (D j).data)
    (fun j => j < r + 1 ∧ j ≠ E))
include hH

/-- A record of the cells in use is of a bucket in use, not the free cell's. -/
theorem oad_live {j : Nat} (hj : j < r + 1) (hjE : j ≠ E) :
    oad (D j).data < r + 1 ∧ oad (D j).data ≠ E :=
  (hH.label_label ⟨hj, hjE⟩).1

/-- The last bucket's chain, when its cell `r` holds a record of it: `r` and the rest. -/
theorem last_chain (hr : r ≠ E) (hrr : oad (D r).data = r) :
    ∃ rest, Links.Chain (fun j => (D j).next) NO_RECORD r (r :: rest) ∧
      ∀ b, b ∈ r :: rest ↔ (b < r + 1 ∧ b ≠ E) ∧ oad (D b).data = r := by
  obtain ⟨l, hl, hmem⟩ := hH r ⟨by omega, hr⟩
  dsimp only at hl hmem
  rw [hrr] at hl hmem
  cases l with
  | nil => exact absurd ((hmem r).2 ⟨⟨by omega, hr⟩, hrr⟩) List.not_mem_nil
  | cons a rest =>
    obtain rfl := (Links.chain_cons.1 hl).1
    exact ⟨rest, hl, hmem⟩

variable (hrel : ∀ y, nad y = if oad y = r then F else oad y)
include hrel

/-- **The frame of a move.** Cells outside `T` keep their link and record. If the touched
    cells are of the buckets `S`, before and after, and the last bucket is in `S`, the
    chains of the other buckets are carried over; those of `S` are given by `hS`. -/
theorem buckets_move_frame {D' : Nat → HASH_LINK α} {S T : Nat → Prop}
    (hSr : S r) (hTE : T E) (hTr : T r) (hT : ∀ j, ¬T j → D' j = D j)
    (hTS' : ∀ j, T j → j < r + 1 → j ≠ E → S (oad (D j).data))
    (hTS : ∀ j, T j → j < r → S (nad (D' j).data))
    (hFr : ∀ j, j < r + 1 → j ≠ E → oad (D j).data = r → S F)
    (hS : ∀ i, i < r → S (nad (D' i).data) →
      ∃ l, Links.Chain (fun j => (D' j).next) NO_RECORD (nad (D' i).data) l ∧
        ∀ b, b ∈ l ↔ b < r ∧ nad (D' b).data = nad (D' i).data) :
    Links.Buckets (fun j => (D' j).next) NO_RECORD (fun j => nad (D' j).data) (· < r) := by
  refine hH.of_change hS ?_ ?_
  · intro b hb hbS
    have hbT : ¬T b := fun h => hbS (hTS b h hb)
    have hbE : b ≠ E := by
      rintro rfl
      exact hbT hTE
    rw [hT b hbT] at hbS ⊢
    -- a record of the last bucket would be in `F`'s, which is in `S`
    have hor : oad (D b).data ≠ r := fun h =>
      hbS (by rw [hrel, if_pos h]; exact hFr b (by omega) hbE h)
    exact ⟨⟨by omega, hbE⟩, by rw [hrel, if_neg hor]⟩
  · rintro b ⟨hb, hbE⟩ hbS
    have hbT : ¬T b := fun h => hbS (hTS' b h hb hbE)
    have hbr : b ≠ r := by
      rintro rfl
      exact hbT hTr
    have hor : oad (D b).data ≠ r := fun h => hbS (h ▸ hSr)
    rw [hT b hbT, hrel, if_neg hor]
    exact ⟨by omega, rfl, rfl⟩

/-- **The free cell is the last one**: nothing moves, and the last bucket is empty. -/
theorem buckets_move_keep (hEr : E = r) :
    Links.Buckets (fun j => (D j).next) NO_RECORD (fun j => nad (D j).data) (· < r) := by
  -- no record is of the last bucket: its cell is the free one
  have hnot : ∀ j, j < r + 1 → j ≠ E → oad (D j).data ≠ r := fun j hj hjE =>
    hEr ▸ (oad_live oad hH hj hjE).2
  refine buckets_move_frame oad nad hH hrel (S := (· = r)) (T := (· = r)) rfl hEr rfl
    (fun _ _ => rfl) (fun j hj _ hjE => absurd (hj.trans hEr.symm) hjE)
    (fun j hj hjr => absurd hj (by omega)) (fun j hj hjE h => absurd h (hnot j hj hjE)) ?_
  intro i hi hir
  have hiE : i ≠ E := by omega
  rw [hrel, if_neg (hnot i (by omega) hiE)] at hir
  exact absurd (hEr ▸ hir) (oad_live oad hH (by omega) hiE).2

/-- **The last record's bucket is the free cell**: the last bucket moves there whole.
    Its records go to bucket `F`, which is the free cell's and so was empty. -/
theorem buckets_move_to_free (hN : r < NO_RECORD) (hlt : ∀ y, nad y < r) (hEr : E ≠ r)
    (hE : E < r + 1) (hP : nad (D r).data = E) :
    Links.Buckets (fun j => (Function.update D E (D r) j).next) NO_RECORD
      (fun j => nad (Function.update D E (D r) j).data) (· < r) := by
  set D' := Function.update D E (D r) with hD'
  have hD'E : D' E = D r := by simp [hD']
  have hD'o : ∀ j, j ≠ E → D' j = D j := fun j hj => by simp [hD', hj]
  have hrlive : r < r + 1 ∧ r ≠ E := ⟨by omega, Ne.symm hEr⟩
  -- the last record heads the last bucket, which goes to the free cell
  have hrr : oad (D r).data = r := by
    by_contra h
    rw [hrel, if_neg h] at hP
    exact (oad_live oad hH (by omega) (Ne.symm hEr)).2 hP
  have hF : F = E := by rw [← hP, hrel, if_pos hrr]
  obtain ⟨l, hl, hmem⟩ := hH r hrlive
  dsimp only at hl hmem
  rw [hrr] at hl hmem
  obtain ⟨rest, rfl⟩ : ∃ rest, l = r :: rest := by
    cases l with
    | nil => exact absurd ((hmem r).2 ⟨hrlive, hrr⟩) List.not_mem_nil
    | cons a rest => exact ⟨rest, by rw [(Links.chain_cons.1 hl).1]⟩
  obtain ⟨-, -, hrest⟩ := Links.chain_cons.1 hl
  have hrest_ne : ∀ b ∈ rest, b ≠ r ∧ (b < r + 1 ∧ b ≠ E) ∧ oad (D b).data = r :=
    fun b hb => ⟨fun h => (List.nodup_cons.1 hl.nodup).1 (h ▸ hb),
      (hmem b).1 (List.mem_cons_of_mem _ hb)⟩
  refine buckets_move_frame oad nad hH hrel (S := fun c => c = E ∨ c = r)
    (T := fun j => j = E ∨ j = r) (Or.inr rfl) (Or.inl rfl) (Or.inr rfl)
    (fun j hj => hD'o j fun h => hj (Or.inl h)) ?_ ?_ (fun _ _ _ _ => Or.inl hF) ?_
  · rintro j (rfl | rfl) _ hjE
    · exact absurd rfl hjE
    · exact Or.inr hrr
  · rintro j (rfl | rfl) hj
    · exact Or.inl (by rw [hD'E, hP])
    · omega
  · rintro i hi (hiE | hir)
    · -- the free cell heads the chain of the last bucket's records
      rw [hiE]
      refine ⟨E :: rest, Links.chain_cons.2 ⟨rfl, by omega, ?_⟩, fun b => ?_⟩
      · rw [hD'E]
        exact hrest.congr fun q hq => by rw [hD'o q (hrest_ne q hq).2.1.2]
      · rw [List.mem_cons]
        constructor
        · rintro (rfl | hb)
          · exact ⟨by omega, by rw [hD'E, hP]⟩
          · obtain ⟨hbr, ⟨hb1, hbE⟩, hbl⟩ := hrest_ne b hb
            exact ⟨by omega, by rw [hD'o b hbE, hrel, if_pos hbl, hF]⟩
        · rintro ⟨hb, hbl⟩
          by_cases hbE : b = E
          · exact Or.inl hbE
          rw [hD'o b hbE, hrel] at hbl
          split_ifs at hbl with hbr
          · have := (hmem b).2 ⟨⟨by omega, hbE⟩, hbr⟩
            exact Or.inr ((List.mem_cons.1 this).resolve_left (by omega))
          · exact absurd hbl (oad_live oad hH (by omega) hbE).2
    · exact absurd hir (by have := hlt (D' i).data; omega)

/-- **The last record's bucket `P` holds a record of another bucket `g`**: that record
    moves to the free cell and is relinked from `g`'s chain, and the last bucket's chain
    moves to `P`. -/
theorem buckets_move_displace (hN : r < NO_RECORD) (hlt : ∀ y, nad y < r) (hEr : E ≠ r)
    (hE : E < r + 1) {P g : Nat} (hP : nad (D r).data = P) (hg : nad (D P).data = g)
    (hPE : P ≠ E) (hgP : g ≠ P) :
    Links.Buckets
      (fun j => (movelink (Function.update (Function.update D E (D P)) P (D r)) P g E r j).next)
      NO_RECORD
      (fun j => nad (movelink (Function.update (Function.update D E (D P)) P (D r)) P g E r
        j).data) (· < r) := by
  have hPr : P < r := hP ▸ hlt _
  have hPlive : P < r + 1 ∧ P ≠ E := ⟨by omega, hPE⟩
  -- the last record heads the last bucket: else `P` would head its own bucket
  have hrr : oad (D r).data = r := by
    by_contra h
    have hrP : oad (D r).data = P := by rw [← hP, hrel, if_neg h]
    have hPP : oad (D P).data = P := hrP ▸ (hH.label_label ⟨by omega, Ne.symm hEr⟩).2
    exact hgP (by rw [← hg, hrel, if_neg (by omega), hPP])
  have hF : F = P := by rw [← hP, hrel, if_pos hrr]
  have hPg : oad (D P).data = g := by
    have : oad (D P).data ≠ r := fun h => hgP (by rw [← hg, hrel, if_pos h, hF])
    rw [← hg, hrel, if_neg this]
  have hgr : g ≠ r := hPg ▸ fun h => hgP (by rw [← hg, hrel, if_pos h, hF])
  have hgE : g ≠ E := hPg ▸ (oad_live oad hH (by omega) hPE).2
  obtain ⟨rest, hl, hmem⟩ := last_chain oad hH (Ne.symm hEr) hrr
  obtain ⟨-, -, hrest⟩ := Links.chain_cons.1 hl
  -- the chain of `g` runs `pre`, `q`, `P`, `post`
  obtain ⟨lg, hlg, hmemg⟩ := hH P hPlive
  dsimp only at hlg hmemg
  rw [hPg] at hlg hmemg
  obtain ⟨pre, q, post, rfl⟩ := hlg.split_of_mem ((hmemg P).2 ⟨hPlive, hPg⟩) (Ne.symm hgP)
  obtain ⟨hpre, hq, hpreN⟩ := Links.chain_append_cons.1 hlg
  obtain ⟨-, hqN, hqP⟩ := Links.chain_cons.1 hq
  obtain ⟨hnextq, -, hpost⟩ := Links.chain_cons.1 hqP
  obtain ⟨-, hnd2, hdisj⟩ := List.nodup_append.1 hlg.nodup
  obtain ⟨hq_tl, hPtl⟩ := List.nodup_cons.1 hnd2
  have hqP' : q ≠ P := fun h => hq_tl (h ▸ List.mem_cons_self)
  have hpost_P : P ∉ post := (List.nodup_cons.1 hPtl).1
  -- the cells of `g`'s chain are in use, of bucket `g`, not `r`
  have hliveg : ∀ b ∈ pre ++ q :: P :: post, b < r ∧ b ≠ E ∧ oad (D b).data = g := fun b hb => by
    obtain ⟨⟨hb1, hbE⟩, hbl⟩ := (hmemg b).1 hb
    refine ⟨?_, hbE, hbl⟩
    have : b ≠ r := fun h => hgr (by rw [← hbl, h, hrr])
    omega
  have hqg : oad (D q).data = g := (hliveg q (by simp)).2.2
  have hpre_ne : ∀ c ∈ pre, c ≠ E ∧ c ≠ P ∧ c ≠ q := fun c hc =>
    ⟨(hliveg c (by simp [hc])).2.1, hdisj c hc P (by simp), hdisj c hc q (by simp)⟩
  have hpost_ne : ∀ c ∈ post, c ≠ E ∧ c ≠ P ∧ c ≠ q := fun c hc =>
    ⟨(hliveg c (by simp [hc])).2.1, fun h => hpost_P (h ▸ hc),
      fun h => hq_tl (List.mem_cons_of_mem _ (h ▸ hc))⟩
  have hrest_ne : ∀ c ∈ rest, c < r ∧ c ≠ E ∧ c ≠ P ∧ c ≠ q := fun c hc => by
    obtain ⟨⟨hc1, hcE⟩, hcl⟩ := (hmem c).1 (List.mem_cons_of_mem _ hc)
    have hcr : c ≠ r := fun h => (List.nodup_cons.1 hl.nodup).1 (h ▸ hc)
    refine ⟨by omega, hcE, fun h => ?_, fun h => ?_⟩
    · exact hgr (by rw [← hPg, ← h, hcl])
    · exact hgr (by rw [← hqg, ← h, hcl])
  -- `movelink` walks `pre` to `q` and links `q` to the free cell
  set D₁ := Function.update (Function.update D E (D P)) P (D r) with hD₁
  have hD₁o : ∀ j, j ≠ E → j ≠ P → D₁ j = D j := fun j hjE hjP => by simp [hD₁, hjE, hjP]
  have hmove : movelink D₁ P g E r = Function.update D₁ q { D₁ q with next := E } := by
    refine movelink_eq (hpre.congr fun c hc => ?_) (fun c hc => ?_) ?_ ?_
    · rw [hD₁o c (hpre_ne c hc).1 (hpre_ne c hc).2.1]
    · rw [hD₁o c (hpre_ne c hc).1 (hpre_ne c hc).2.1]
      intro hcP
      have := hpre.next_mem hc
      rw [hcP, List.mem_append, List.mem_singleton] at this
      exact this.elim (fun h => (hpre_ne P h).2.1 rfl) (fun h => hqP' h.symm)
    · rw [hD₁o q (hliveg q (by simp)).2.1 hqP']
      exact hnextq
    · have hlen := hlg.length_le fun b hb => (hliveg b hb).1
      simp only [List.length_append, List.length_cons] at hlen
      omega
  rw [hmove]
  set D' := Function.update D₁ q { D₁ q with next := E } with hD'
  have hqE : q ≠ E := (hliveg q (by simp)).2.1
  have hD'E : D' E = D P := by simp [hD', hD₁, Ne.symm hqE, hPE.symm]
  have hD'P : D' P = D r := by simp [hD', hD₁, Ne.symm hqP']
  have hD'q : D' q = { D q with next := E } := by simp [hD', hD₁o q hqE hqP']
  have hD'o : ∀ j, j ≠ E → j ≠ P → j ≠ q → D' j = D j := fun j hjE hjP hjq => by
    rw [hD', Function.update_of_ne hjq, hD₁o j hjE hjP]
  have hlab : ∀ b, nad (D' b).data =
      if b = E then g else if b = P then P else nad (D b).data := fun b => by
    by_cases hbE : b = E
    · rw [if_pos hbE, hbE, hD'E, hg]
    by_cases hbP : b = P
    · rw [if_neg hbE, if_pos hbP, hbP, hD'P, hP]
    rw [if_neg hbE, if_neg hbP]
    by_cases hbq : b = q
    · rw [hbq, hD'q]
    · rw [hD'o b hbE hbP hbq]
  refine buckets_move_frame oad nad hH hrel (S := fun c => c = P ∨ c = g ∨ c = r)
    (T := fun j => j = E ∨ j = r ∨ j = P ∨ j = q) (Or.inr (Or.inr rfl)) (Or.inl rfl)
    (Or.inr (Or.inl rfl)) (fun j hj => hD'o j (fun h => hj (Or.inl h))
      (fun h => hj (Or.inr (Or.inr (Or.inl h)))) (fun h => hj (Or.inr (Or.inr (Or.inr h)))))
    ?_ ?_ (fun _ _ _ _ => Or.inl hF) ?_
  · rintro j (rfl | rfl | rfl | rfl) _ hjE
    · exact absurd rfl hjE
    · exact Or.inr (Or.inr hrr)
    · exact Or.inr (Or.inl hPg)
    · exact Or.inr (Or.inl hqg)
  · rintro j (rfl | rfl | rfl | rfl) hj
    · exact Or.inr (Or.inl (by rw [hlab, if_pos rfl]))
    · omega
    · exact Or.inl (by rw [hlab, if_neg hPE, if_pos rfl])
    · exact Or.inr (Or.inl (by rw [hlab, if_neg hqE, if_neg hqP', hrel, if_neg (hqg ▸ hgr),
        hqg]))
  · rintro i hi (hiP | hig | hir)
    · -- bucket `P`: the last bucket's chain, from `P`
      rw [hiP]
      refine ⟨P :: rest, Links.chain_cons.2 ⟨rfl, by omega, ?_⟩, fun b => ?_⟩
      · rw [hD'P]
        exact hrest.congr fun c hc => by
          rw [hD'o c (hrest_ne c hc).2.1 (hrest_ne c hc).2.2.1 (hrest_ne c hc).2.2.2]
      · rw [List.mem_cons, hlab]
        constructor
        · rintro (rfl | hb)
          · exact ⟨hPr, by rw [if_neg hPE, if_pos rfl]⟩
          · obtain ⟨hb1, hbE, hbP, -⟩ := hrest_ne b hb
            exact ⟨hb1, by rw [if_neg hbE, if_neg hbP, hrel,
              if_pos ((hmem b).1 (List.mem_cons_of_mem _ hb)).2, hF]⟩
        · rintro ⟨hb, hbl⟩
          by_cases hbE : b = E
          · rw [if_pos hbE] at hbl
            exact absurd hbl hgP
          by_cases hbP : b = P
          · exact Or.inl hbP
          rw [if_neg hbE, if_neg hbP, hrel] at hbl
          split_ifs at hbl with hbr
          · exact Or.inr ((List.mem_cons.1 ((hmem b).2 ⟨⟨by omega, hbE⟩, hbr⟩)).resolve_left
              (by omega))
          · -- a record of bucket `P` would make `P` head its own bucket
            have := (hH.label_label ⟨(by omega : b < r + 1), hbE⟩).2
            rw [hbl, hPg] at this
            exact absurd this hgP
    · -- bucket `g`: the free cell in the place of `P`
      rw [hig]
      refine ⟨pre ++ q :: E :: post, ?_, fun b => ?_⟩
      · refine Links.chain_append_cons.2 ⟨hpre.congr fun c hc => ?_,
          Links.chain_cons.2 ⟨rfl, hqN, Links.chain_cons.2 ⟨by simp [hD'q], by omega, ?_⟩⟩,
          hpreN⟩
        · rw [hD'o c (hpre_ne c hc).1 (hpre_ne c hc).2.1 (hpre_ne c hc).2.2]
        · rw [hD'E]
          exact hpost.congr fun c hc => by
            rw [hD'o c (hpost_ne c hc).1 (hpost_ne c hc).2.1 (hpost_ne c hc).2.2]
      · rw [hlab]
        simp only [List.mem_append, List.mem_cons]
        have hold : ∀ c, c ∈ pre ∨ c = q ∨ c ∈ post → c ≠ E → c ≠ P →
            c < r ∧ nad (D c).data = g := fun c hc hcE hcP => by
          have hc' : c ∈ pre ++ q :: P :: post := by
            simp only [List.mem_append, List.mem_cons]
            tauto
          obtain ⟨hc1, -, hcl⟩ := hliveg c hc'
          exact ⟨hc1, by rw [hrel, if_neg (hcl ▸ hgr), hcl]⟩
        constructor
        · intro hb
          by_cases hbE : b = E
          · exact ⟨by omega, if_pos hbE⟩
          have hbP : b ≠ P := by
            rintro rfl
            rcases hb with hb | hb | hb | hb
            · exact (hpre_ne b hb).2.1 rfl
            · exact hqP' hb.symm
            · exact hbE hb
            · exact hpost_P hb
          rw [if_neg hbE, if_neg hbP]
          refine hold b ?_ hbE hbP
          rcases hb with hb | hb | hb | hb
          · exact Or.inl hb
          · exact Or.inr (Or.inl hb)
          · exact absurd hb hbE
          · exact Or.inr (Or.inr hb)
        · rintro ⟨hb, hbl⟩
          by_cases hbE : b = E
          · exact Or.inr (Or.inr (Or.inl hbE))
          rw [if_neg hbE] at hbl
          by_cases hbP : b = P
          · rw [if_pos hbP] at hbl
            exact absurd hbl.symm hgP
          rw [if_neg hbP, hrel] at hbl
          split_ifs at hbl with hbr
          · exact absurd (hbl.symm.trans hF) hgP
          have := (hmemg b).2 ⟨⟨by omega, hbE⟩, hbl⟩
          simp only [List.mem_append, List.mem_cons] at this
          rcases this with h | h | h | h
          · exact Or.inl h
          · exact Or.inr (Or.inl h)
          · exact absurd h hbP
          · exact Or.inr (Or.inr (Or.inr h))
    · exact absurd hir (by have := hlt (D' i).data; omega)

/-- **The last record and the record in its bucket's cell `P` are of one bucket**, not the
    last: the last record moves to the free cell, and the cell before it in `P`'s chain is
    relinked to it there. -/
theorem buckets_move_same (hN : r < NO_RECORD) (hlt : ∀ y, nad y < r) (hEr : E ≠ r)
    (hE : E < r + 1) {P : Nat} (hP : nad (D r).data = P) (hPE : P ≠ E)
    (hsame : oad (D r).data = oad (D P).data) (hne : oad (D r).data ≠ r) :
    Links.Buckets (fun j => (movelink (Function.update D E (D r)) r P E r j).next) NO_RECORD
      (fun j => nad (movelink (Function.update D E (D r)) r P E r j).data) (· < r) := by
  have hPr : P < r := hP ▸ hlt _
  have hrP : oad (D r).data = P := by rw [← hP, hrel, if_neg hne]
  have hPP : oad (D P).data = P := hsame ▸ hrP
  -- no record is of the last bucket: its cell holds a record of bucket `P`
  have hnot : ∀ j, j < r + 1 → j ≠ E → oad (D j).data ≠ r := fun j hj hjE h =>
    hne (h ▸ (hH.label_label ⟨hj, hjE⟩).2)
  -- the chain of `P` runs `pre`, `q`, `r`, `post`
  obtain ⟨l, hl, hmem⟩ := hH P ⟨by omega, hPE⟩
  dsimp only at hl hmem
  rw [hPP] at hl hmem
  obtain ⟨pre, q, post, rfl⟩ := hl.split_of_mem ((hmem r).2 ⟨⟨by omega, Ne.symm hEr⟩, hrP⟩)
    (by omega)
  obtain ⟨hpre, hq, hpreN⟩ := Links.chain_append_cons.1 hl
  obtain ⟨-, hqN, hqr⟩ := Links.chain_cons.1 hq
  obtain ⟨hnextq, -, hpost⟩ := Links.chain_cons.1 hqr
  obtain ⟨-, hnd2, hdisj⟩ := List.nodup_append.1 hl.nodup
  obtain ⟨hq_tl, hrtl⟩ := List.nodup_cons.1 hnd2
  have hqr' : q ≠ r := fun h => hq_tl (h ▸ List.mem_cons_self)
  have hpost_r : r ∉ post := (List.nodup_cons.1 hrtl).1
  have hliveP : ∀ b ∈ pre ++ q :: r :: post, (b < r + 1 ∧ b ≠ E) ∧ oad (D b).data = P :=
    fun b hb => (hmem b).1 hb
  have hqE : q ≠ E := (hliveP q (by simp)).1.2
  have hqP : oad (D q).data = P := (hliveP q (by simp)).2
  have hpre_ne : ∀ c ∈ pre, c ≠ E ∧ c ≠ q ∧ c ≠ r := fun c hc =>
    ⟨(hliveP c (by simp [hc])).1.2, hdisj c hc q (by simp), hdisj c hc r (by simp)⟩
  have hpost_ne : ∀ c ∈ post, c ≠ E ∧ c ≠ q ∧ c ≠ r := fun c hc =>
    ⟨(hliveP c (by simp [hc])).1.2, fun h => hq_tl (List.mem_cons_of_mem _ (h ▸ hc)),
      fun h => hpost_r (h ▸ hc)⟩
  -- `movelink` walks `pre` to `q` and links `q` to the free cell
  set D₁ := Function.update D E (D r) with hD₁
  have hD₁o : ∀ j, j ≠ E → D₁ j = D j := fun j hjE => by simp [hD₁, hjE]
  have hmove : movelink D₁ r P E r = Function.update D₁ q { D₁ q with next := E } := by
    refine movelink_eq (hpre.congr fun c hc => ?_) (fun c hc => ?_) ?_ ?_
    · rw [hD₁o c (hpre_ne c hc).1]
    · rw [hD₁o c (hpre_ne c hc).1]
      intro hcr
      have := hpre.next_mem hc
      rw [hcr, List.mem_append, List.mem_singleton] at this
      exact this.elim (fun h => (hpre_ne r h).2.2 rfl) (fun h => hqr' h.symm)
    · rw [hD₁o q hqE]
      exact hnextq
    · have hlen := hl.length_le fun b hb => (hliveP b hb).1.1
      simp only [List.length_append, List.length_cons] at hlen
      omega
  rw [hmove]
  set D' := Function.update D₁ q { D₁ q with next := E } with hD'
  have hD'E : D' E = D r := by simp [hD', hD₁, Ne.symm hqE]
  have hD'q : D' q = { D q with next := E } := by simp [hD', hD₁o q hqE]
  have hD'o : ∀ j, j ≠ E → j ≠ q → D' j = D j := fun j hjE hjq => by
    rw [hD', Function.update_of_ne hjq, hD₁o j hjE]
  have hlab : ∀ b, nad (D' b).data = if b = E then P else nad (D b).data := fun b => by
    by_cases hbE : b = E
    · rw [if_pos hbE, hbE, hD'E, hP]
    rw [if_neg hbE]
    by_cases hbq : b = q
    · rw [hbq, hD'q]
    · rw [hD'o b hbE hbq]
  refine buckets_move_frame oad nad hH hrel (S := fun c => c = P ∨ c = r)
    (T := fun j => j = E ∨ j = r ∨ j = q) (Or.inr rfl) (Or.inl rfl) (Or.inr (Or.inl rfl))
    (fun j hj => hD'o j (fun h => hj (Or.inl h)) (fun h => hj (Or.inr (Or.inr h))))
    ?_ ?_ (fun j hj hjE h => absurd h (hnot j hj hjE)) ?_
  · rintro j (rfl | rfl | rfl) _ hjE
    · exact absurd rfl hjE
    · exact Or.inl hrP
    · exact Or.inl hqP
  · rintro j (rfl | rfl | rfl) hj
    · exact Or.inl (by rw [hlab, if_pos rfl])
    · omega
    · exact Or.inl (by rw [hlab, if_neg hqE, hrel, if_neg (by omega), hqP])
  · rintro i hi (hiP | hir)
    · -- bucket `P`: the free cell in the place of the last one
      rw [hiP]
      refine ⟨pre ++ q :: E :: post, ?_, fun b => ?_⟩
      · refine Links.chain_append_cons.2 ⟨hpre.congr fun c hc => ?_,
          Links.chain_cons.2 ⟨rfl, hqN, Links.chain_cons.2 ⟨by simp [hD'q], by omega, ?_⟩⟩,
          hpreN⟩
        · rw [hD'o c (hpre_ne c hc).1 (hpre_ne c hc).2.1]
        · rw [hD'E]
          exact hpost.congr fun c hc => by rw [hD'o c (hpost_ne c hc).1 (hpost_ne c hc).2.1]
      · rw [hlab]
        simp only [List.mem_append, List.mem_cons]
        have hold : ∀ c, c ∈ pre ∨ c = q ∨ c ∈ post → c ≠ E →
            c < r ∧ nad (D c).data = P := fun c hc hcE => by
          have hc' : c ∈ pre ++ q :: r :: post := by
            simp only [List.mem_append, List.mem_cons]
            tauto
          obtain ⟨⟨hc1, -⟩, hcl⟩ := hliveP c hc'
          have hcr : c ≠ r := by
            rintro rfl
            rcases hc with hc | hc | hc
            · exact (hpre_ne c hc).2.2 rfl
            · exact hqr' hc.symm
            · exact hpost_r hc
          exact ⟨by omega, by rw [hrel, if_neg (by omega), hcl]⟩
        constructor
        · intro hb
          by_cases hbE : b = E
          · exact ⟨by omega, if_pos hbE⟩
          rw [if_neg hbE]
          refine hold b ?_ hbE
          rcases hb with hb | hb | hb | hb
          · exact Or.inl hb
          · exact Or.inr (Or.inl hb)
          · exact absurd hb hbE
          · exact Or.inr (Or.inr hb)
        · rintro ⟨hb, hbl⟩
          by_cases hbE : b = E
          · exact Or.inr (Or.inr (Or.inl hbE))
          rw [if_neg hbE, hrel, if_neg (hnot b (by omega) hbE)] at hbl
          have := (hmem b).2 ⟨⟨by omega, hbE⟩, hbl⟩
          simp only [List.mem_append, List.mem_cons] at this
          rcases this with h | h | h | h
          · exact Or.inl h
          · exact Or.inr (Or.inl h)
          · omega
          · exact Or.inr (Or.inr (Or.inr h))
    · exact absurd hir (by have := hlt (D' i).data; omega)

/-- **The last record and the record in its bucket's cell `P` are both of the last
    bucket**: `P` is in the last bucket's chain, and that chain, its head copied to the
    free cell, is relinked to start at `P` (`merge` with `idx = P`). -/
theorem buckets_move_merge_into (hN : r < NO_RECORD) (hlt : ∀ y, nad y < r) (hEr : E ≠ r)
    (hE : E < r + 1) {P : Nat} (hP : nad (D r).data = P) (hPE : P ≠ E)
    (hsame : oad (D r).data = oad (D P).data) (hrr : oad (D r).data = r) :
    Links.Buckets (fun j => (my_hash_delete.merge D r E P P r j).next) NO_RECORD
      (fun j => nad (my_hash_delete.merge D r E P P r j).data) (· < r) := by
  have hPr : P < r := hP ▸ hlt _
  have hPl : oad (D P).data = r := hsame ▸ hrr
  have hF : F = P := by rw [← hP, hrel, if_pos hrr]
  -- the last bucket's chain runs `r`, `m₁`, `P`, `m₂`
  obtain ⟨rest, hl, hmem⟩ := last_chain oad hH (Ne.symm hEr) hrr
  obtain ⟨-, -, hrest⟩ := Links.chain_cons.1 hl
  have hPrest : P ∈ rest :=
    (List.mem_cons.1 ((hmem P).2 ⟨⟨by omega, hPE⟩, hPl⟩)).resolve_left (by omega)
  obtain ⟨m₁, m₂, rfl⟩ := List.append_of_mem hPrest
  obtain ⟨hm₁, hPc, -⟩ := Links.chain_append_cons.1 hrest
  obtain ⟨-, -, hm₂⟩ := Links.chain_cons.1 hPc
  obtain ⟨hr_not, hnd'⟩ := List.nodup_cons.1 hl.nodup
  obtain ⟨hm₁nd, hPm₂nd, hdisj⟩ := List.nodup_append.1 hnd'
  have hP_m₂ : P ∉ m₂ := (List.nodup_cons.1 hPm₂nd).1
  have hlive : ∀ b ∈ m₁ ++ P :: m₂, b < r ∧ b ≠ E ∧ oad (D b).data = r := fun b hb => by
    obtain ⟨⟨hb1, hbE⟩, hbl⟩ := (hmem b).1 (List.mem_cons_of_mem _ hb)
    have : b ≠ r := fun h => hr_not (h ▸ hb)
    exact ⟨by omega, hbE, hbl⟩
  have hm₁P : P ∉ m₁ := fun h => hdisj P h P List.mem_cons_self rfl
  -- the walk from the free cell: `E`, then `m₁`, to `P`
  have hw : Links.Path (fun j => (Function.update D E (D r) j).next) E (E :: m₁) P := by
    refine Links.path_cons.2 ⟨rfl, ?_⟩
    simp only [Function.update_self]
    exact hm₁.congr fun c hc => by simp [(hlive c (by simp [hc])).2.1]
  obtain ⟨pre, q, hpq⟩ : ∃ pre q, E :: m₁ = pre ++ [q] :=
    ⟨_, _, (List.dropLast_append_getLast (List.cons_ne_nil E m₁)).symm⟩
  have hq : q = E ∨ q ∈ m₁ := List.mem_cons.1 (hpq ▸ List.mem_concat_self ..)
  have hEm₁ : (E :: m₁).Nodup :=
    List.nodup_cons.2 ⟨fun h => (hlive E (by simp [h])).2.1 rfl, hm₁nd⟩
  have hPw : P ∉ E :: m₁ := by
    rw [List.mem_cons, not_or]
    exact ⟨hPE, hm₁P⟩
  have hfuel : pre.length < r := by
    have hlen := congrArg List.length hpq
    have hle := Links.length_le_of_nodup (List.nodup_cons.2 ⟨hm₁P, hm₁nd⟩)
      fun b hb => (hlive b (by simp at hb ⊢; tauto)).1
    simp at hlen hle
    omega
  rw [hpq] at hw hEm₁ hPw
  obtain ⟨hchain, hframe⟩ := merge_chain hPE hw hEm₁ hPw hPw hfuel hm₂
    (fun j hj => by
      obtain ⟨-, hjE, -⟩ := hlive j (by simp [hj])
      refine ⟨hjE, fun h => hP_m₂ (h ▸ hj), fun h => ?_⟩
      rcases hq with hqE | hqm
      · exact hjE (h.trans hqE)
      · exact hdisj q hqm j (List.mem_cons_of_mem _ hj) h.symm)
    (by omega) (by
      rw [← hpq, List.mem_cons, not_or]
      exact ⟨by omega, fun h => by have := (hlive NO_RECORD (by simp [h])).1; omega⟩)
  set D' := my_hash_delete.merge D r E P P r with hD'
  have hlab : ∀ b, nad (D' b).data = if b = E then P else nad (D b).data := fun b => by
    rw [hD', merge_data]
    by_cases hbE : b = E
    · rw [if_pos hbE, hbE, Function.update_self, hP]
    · rw [if_neg hbE, Function.update_of_ne hbE]
  have hnadr : ∀ b ∈ m₁ ++ P :: m₂, nad (D b).data = P := fun b hb => by
    rw [hrel, if_pos (hlive b hb).2.2, hF]
  have hqT : q ≠ E → q < r ∧ oad (D q).data = r := fun hqE => by
    obtain ⟨h1, -, h3⟩ := hlive q (by simp [hq.resolve_left hqE])
    exact ⟨h1, h3⟩
  refine buckets_move_frame oad nad hH hrel (S := fun c => c = P ∨ c = r)
    (T := fun j => j = E ∨ j = r ∨ j = P ∨ j = q) (Or.inr rfl) (Or.inl rfl)
    (Or.inr (Or.inl rfl)) (fun j hj => ?_) ?_ ?_ (fun _ _ _ _ => Or.inl hF) ?_
  · have hjE : j ≠ E := fun h => hj (Or.inl h)
    rw [hframe j (fun h => hj (Or.inr (Or.inr (Or.inl h))))
      (fun h => hj (Or.inr (Or.inr (Or.inr h)))), Function.update_of_ne hjE]
  · rintro j (rfl | rfl | rfl | rfl) _ hjE
    · exact absurd rfl hjE
    · exact Or.inr hrr
    · exact Or.inr hPl
    · exact Or.inr (hqT hjE).2
  · rintro j (rfl | rfl | rfl | rfl) hj
    · exact Or.inl (by rw [hlab, if_pos rfl])
    · omega
    · exact Or.inl (by rw [hlab, if_neg hPE, hnadr j (by simp)])
    · by_cases hjE : j = E
      · exact Or.inl (by rw [hlab, if_pos hjE])
      · exact Or.inl (by rw [hlab, if_neg hjE, hnadr j (by simp [hq.resolve_left hjE])])
  · rintro i hi (hiP | hir)
    · -- bucket `P`: the last bucket's chain, from `P`
      rw [hiP]
      refine ⟨_, hchain, fun b => ?_⟩
      have hL : b ∈ P :: (pre ++ q :: m₂) ↔ b = P ∨ b = E ∨ b ∈ m₁ ∨ b ∈ m₂ := by
        rw [show pre ++ q :: m₂ = (pre ++ [q]) ++ m₂ by simp, ← hpq]
        simp only [List.mem_cons, List.cons_append, List.mem_append]
      rw [hL, hlab]
      constructor
      · rintro (rfl | rfl | hb | hb)
        · exact ⟨hPr, by rw [if_neg hPE, hnadr b (by simp)]⟩
        · exact ⟨by omega, if_pos rfl⟩
        · obtain ⟨hb1, hbE, -⟩ := hlive b (by simp [hb])
          exact ⟨hb1, by rw [if_neg hbE, hnadr b (by simp [hb])]⟩
        · obtain ⟨hb1, hbE, -⟩ := hlive b (by simp [hb])
          exact ⟨hb1, by rw [if_neg hbE, hnadr b (by simp [hb])]⟩
      · rintro ⟨hb, hbl⟩
        by_cases hbE : b = E
        · exact Or.inr (Or.inl hbE)
        rw [if_neg hbE, hrel] at hbl
        split_ifs at hbl with hbr
        · have := (hmem b).2 ⟨⟨by omega, hbE⟩, hbr⟩
          simp only [List.mem_cons, List.mem_append] at this
          rcases this with h | h | h | h
          · omega
          · exact Or.inr (Or.inr (Or.inl h))
          · exact Or.inl h
          · exact Or.inr (Or.inr (Or.inr h))
        · -- a record of bucket `P` would make `P` head its own bucket
          have := (hH.label_label ⟨(by omega : b < r + 1), hbE⟩).2
          rw [hbl, hPl] at this
          omega
    · exact absurd hir (by have := hlt (D' i).data; omega)

/-- **The last record and the record in its bucket's cell `P` are of two buckets**, `P`
    holding its own: the last bucket's chain, its head copied to the free cell, is put
    between `P` and the rest of `P`'s chain (`merge` with `idx = NO_RECORD`). -/
theorem buckets_move_merge_after (hN : r < NO_RECORD) (hlt : ∀ y, nad y < r) (hEr : E ≠ r)
    (hE : E < r + 1) {P : Nat} (hP : nad (D r).data = P) (hPE : P ≠ E)
    (hP3 : nad (D P).data = P) (hdiff : oad (D r).data ≠ oad (D P).data) :
    Links.Buckets (fun j => (my_hash_delete.merge D r E P NO_RECORD r j).next) NO_RECORD
      (fun j => nad (my_hash_delete.merge D r E P NO_RECORD r j).data) (· < r) := by
  have hPr : P < r := hP ▸ hlt _
  -- `P` heads its own bucket, and the last record the last bucket
  have hPnr : oad (D P).data ≠ r := by
    intro hPl
    by_cases hrr : oad (D r).data = r
    · exact hdiff (hrr.trans hPl.symm)
    · have hrP : oad (D r).data = P := by rw [← hP, hrel, if_neg hrr]
      have := (hH.label_label ⟨(by omega : r < r + 1), Ne.symm hEr⟩).2
      rw [hrP, hPl] at this
      omega
  have hPP : oad (D P).data = P := by
    have h := hP3
    rwa [hrel, if_neg hPnr] at h
  have hrr : oad (D r).data = r := by
    by_contra h
    exact hdiff (by rw [hPP, ← hP, hrel, if_neg h])
  have hF : F = P := by rw [← hP, hrel, if_pos hrr]
  -- the last bucket's chain `r :: m`, and `P`'s chain `P :: k`
  obtain ⟨m, hl, hmem⟩ := last_chain oad hH (Ne.symm hEr) hrr
  obtain ⟨-, -, hm⟩ := Links.chain_cons.1 hl
  obtain ⟨lP, hlP, hmemP⟩ := hH P ⟨by omega, hPE⟩
  dsimp only at hlP hmemP
  rw [hPP] at hlP hmemP
  obtain ⟨k, rfl⟩ : ∃ k, lP = P :: k := by
    cases lP with
    | nil => exact absurd ((hmemP P).2 ⟨⟨by omega, hPE⟩, hPP⟩) List.not_mem_nil
    | cons a k => exact ⟨k, by rw [(Links.chain_cons.1 hlP).1]⟩
  obtain ⟨-, -, hk⟩ := Links.chain_cons.1 hlP
  obtain ⟨hr_not, hmnd⟩ := List.nodup_cons.1 hl.nodup
  have hP_k : P ∉ k := (List.nodup_cons.1 hlP.nodup).1
  have hlive_m : ∀ b ∈ m, b < r ∧ b ≠ E ∧ oad (D b).data = r := fun b hb => by
    obtain ⟨⟨hb1, hbE⟩, hbl⟩ := (hmem b).1 (List.mem_cons_of_mem _ hb)
    have : b ≠ r := fun h => hr_not (h ▸ hb)
    exact ⟨by omega, hbE, hbl⟩
  have hlive_k : ∀ b ∈ k, b < r ∧ b ≠ E ∧ oad (D b).data = P := fun b hb => by
    obtain ⟨⟨hb1, hbE⟩, hbl⟩ := (hmemP b).1 (List.mem_cons_of_mem _ hb)
    have : b ≠ r := fun h => by rw [h, hrr] at hbl; omega
    exact ⟨by omega, hbE, hbl⟩
  have hPm : P ∉ m := fun h => hPnr (hlive_m P h).2.2
  -- the walk from the free cell: `E`, then `m`, to the end of the chain
  have hw : Links.Path (fun j => (Function.update D E (D r) j).next) E (E :: m) NO_RECORD := by
    refine Links.path_cons.2 ⟨rfl, ?_⟩
    simp only [Function.update_self]
    exact hm.path.congr fun c hc => by simp [(hlive_m c hc).2.1]
  obtain ⟨pre, q, hpq⟩ : ∃ pre q, E :: m = pre ++ [q] :=
    ⟨_, _, (List.dropLast_append_getLast (List.cons_ne_nil E m)).symm⟩
  have hq : q = E ∨ q ∈ m := List.mem_cons.1 (hpq ▸ List.mem_concat_self ..)
  have hEm : (E :: m).Nodup := List.nodup_cons.2 ⟨fun h => (hlive_m E h).2.1 rfl, hmnd⟩
  have hPw : P ∉ E :: m := by
    rw [List.mem_cons, not_or]
    exact ⟨hPE, hPm⟩
  have hNw : NO_RECORD ∉ E :: m := by
    rw [List.mem_cons, not_or]
    exact ⟨by omega, fun h => by have := (hlive_m NO_RECORD h).1; omega⟩
  have hfuel : pre.length < r := by
    have hlen := congrArg List.length hpq
    have hle := Links.length_le_of_nodup (List.nodup_cons.2 ⟨hPm, hmnd⟩)
      fun b hb => by
        rcases List.mem_cons.1 hb with rfl | hb
        · exact hPr
        · exact (hlive_m b hb).1
    simp at hlen hle
    omega
  rw [hpq] at hw hEm hPw hNw
  obtain ⟨hchain, hframe⟩ := merge_chain hPE hw hEm hNw hPw hfuel hk
    (fun j hj => by
      obtain ⟨-, hjE, hjl⟩ := hlive_k j hj
      refine ⟨hjE, fun h => hP_k (h ▸ hj), fun h => ?_⟩
      rcases hq with hqE | hqm
      · exact hjE (h.trans hqE)
      · rw [h, (hlive_m q hqm).2.2] at hjl
        omega)
    (by omega) hNw
  set D' := my_hash_delete.merge D r E P NO_RECORD r with hD'
  have hlab : ∀ b, nad (D' b).data = if b = E then P else nad (D b).data := fun b => by
    rw [hD', merge_data]
    by_cases hbE : b = E
    · rw [if_pos hbE, hbE, Function.update_self, hP]
    · rw [if_neg hbE, Function.update_of_ne hbE]
  have hnadm : ∀ b ∈ m, nad (D b).data = P := fun b hb => by
    rw [hrel, if_pos (hlive_m b hb).2.2, hF]
  have hnadk : ∀ b ∈ k, nad (D b).data = P := fun b hb => by
    rw [hrel, if_neg (by rw [(hlive_k b hb).2.2]; omega), (hlive_k b hb).2.2]
  refine buckets_move_frame oad nad hH hrel (S := fun c => c = P ∨ c = r)
    (T := fun j => j = E ∨ j = r ∨ j = P ∨ j = q) (Or.inr rfl) (Or.inl rfl)
    (Or.inr (Or.inl rfl)) (fun j hj => ?_) ?_ ?_ (fun _ _ _ _ => Or.inl hF) ?_
  · have hjE : j ≠ E := fun h => hj (Or.inl h)
    rw [hframe j (fun h => hj (Or.inr (Or.inr (Or.inl h))))
      (fun h => hj (Or.inr (Or.inr (Or.inr h)))), Function.update_of_ne hjE]
  · rintro j (rfl | rfl | rfl | rfl) _ hjE
    · exact absurd rfl hjE
    · exact Or.inr hrr
    · exact Or.inl hPP
    · exact Or.inr (hlive_m j (hq.resolve_left hjE)).2.2
  · rintro j (rfl | rfl | rfl | rfl) hj
    · exact Or.inl (by rw [hlab, if_pos rfl])
    · omega
    · exact Or.inl (by rw [hlab, if_neg hPE, hP3])
    · by_cases hjE : j = E
      · exact Or.inl (by rw [hlab, if_pos hjE])
      · exact Or.inl (by rw [hlab, if_neg hjE, hnadm j (hq.resolve_left hjE)])
  · rintro i hi (hiP | hir)
    · -- bucket `P`: `P`, the last bucket's chain from the free cell, and `P`'s rest
      rw [hiP]
      refine ⟨_, hchain, fun b => ?_⟩
      have hL : b ∈ P :: (pre ++ q :: k) ↔ b = P ∨ b = E ∨ b ∈ m ∨ b ∈ k := by
        rw [show pre ++ q :: k = (pre ++ [q]) ++ k by simp, ← hpq]
        simp only [List.mem_cons, List.cons_append, List.mem_append]
      rw [hL, hlab]
      constructor
      · rintro (rfl | rfl | hb | hb)
        · exact ⟨hPr, by rw [if_neg hPE, hP3]⟩
        · exact ⟨by omega, if_pos rfl⟩
        · obtain ⟨hb1, hbE, -⟩ := hlive_m b hb
          exact ⟨hb1, by rw [if_neg hbE, hnadm b hb]⟩
        · obtain ⟨hb1, hbE, -⟩ := hlive_k b hb
          exact ⟨hb1, by rw [if_neg hbE, hnadk b hb]⟩
      · rintro ⟨hb, hbl⟩
        by_cases hbE : b = E
        · exact Or.inr (Or.inl hbE)
        rw [if_neg hbE, hrel] at hbl
        split_ifs at hbl with hbr
        · have := (hmem b).2 ⟨⟨by omega, hbE⟩, hbr⟩
          exact Or.inr (Or.inr (Or.inl ((List.mem_cons.1 this).resolve_left (by omega))))
        · have := (hmemP b).2 ⟨⟨by omega, hbE⟩, hbl⟩
          rcases List.mem_cons.1 this with h | h
          · exact Or.inl h
          · exact Or.inr (Or.inr (Or.inr h))
    · exact absurd hir (by have := hlt (D' i).data; omega)

end move

/-! ## 5. The whole move -/

section move_last

variable {hash : HASH α K} {b0 r b E F : Nat} {D : Nat → HASH_LINK α}

/-- The records of the cells below `r` after the last cell's record moved into cell `t`,
    and what `t` held, if `t` is not the free cell, into the free cell `E`. -/
theorem perm_move_last {D' : Nat → HASH_LINK α} {t : Nat} (hEr : E < r) (ht : t < r)
    (hD't : (D' t).data = (D r).data) (hD'e : t ≠ E → (D' E).data = (D t).data)
    (hD'o : ∀ j, j ≠ E → j ≠ t → (D' j).data = (D j).data) :
    ((List.range r).map fun j => (D' j).data).Perm
      (((List.range (r + 1)).filter (· ≠ E)).map fun j => (D j).data) := by
  refine (map_data_perm_of_move ht hEr hD't hD'e hD'o).trans ?_
  have hlast : [r].filter (· ≠ E) = [r] := by
    simp only [List.filter_cons, List.filter_nil]
    rw [if_pos (by simp; omega)]
  rw [List.range_succ, List.filter_append, List.map_append, hlast]
  exact (List.perm_append_singleton _ _).symm

/-- **Moving the last record.** From a table with a free cell `E` among its cells
    `0 .. r`, linked by the old addresses, `move_last` gives a table of the cells
    `0 .. r - 1` linked by the new addresses, with the same records. -/
theorem my_hash_delete.move_last_spec
    (hH : Links.Buckets (fun j => (D j).next) NO_RECORD
      (fun j => my_hash_mask (rec_hashnr hash (D j).data) b0 (r + 1))
      (fun j => j < r + 1 ∧ j ≠ E))
    (hrel : ∀ y, my_hash_mask (rec_hashnr hash y) b r =
      if my_hash_mask (rec_hashnr hash y) b0 (r + 1) = r then F
      else my_hash_mask (rec_hashnr hash y) b0 (r + 1))
    (hlt : ∀ y, my_hash_mask (rec_hashnr hash y) b r < r) (hN : r < NO_RECORD)
    (hE : E < r + 1) :
    Links.Buckets (fun j => (my_hash_delete.move_last hash b0 r b E D j).next) NO_RECORD
      (fun j => my_hash_mask (rec_hashnr hash (my_hash_delete.move_last hash b0 r b E D j).data)
        b r) (· < r) ∧
    ((List.range r).map fun j => (my_hash_delete.move_last hash b0 r b E D j).data).Perm
      (((List.range (r + 1)).filter (· ≠ E)).map fun j => (D j).data) := by
  set oad := fun y => my_hash_mask (rec_hashnr hash y) b0 (r + 1) with hoad
  set nad := fun y => my_hash_mask (rec_hashnr hash y) b r with hnad
  simp only [my_hash_delete.move_last]
  split_ifs with hEr hPE hP3 hsame hne
  · -- the free cell is the last one
    refine ⟨buckets_move_keep oad nad hH hrel hEr, ?_⟩
    subst hEr
    refine List.Perm.of_eq ?_
    rw [List.range_succ, List.filter_append, List.filter_cons_of_neg (by simp),
      List.filter_nil, List.append_nil, List.filter_eq_self.2 (fun j hj => by
        simp only [List.mem_range] at hj
        simp only [ne_eq, decide_eq_true_eq]
        omega)]
  all_goals have hEr' : E < r := by omega
  · -- the last record's bucket is the free cell
    refine ⟨buckets_move_to_free oad nad hH hrel hN hlt hEr hE hPE, ?_⟩
    exact perm_move_last hEr' hEr' (by simp) (fun h => absurd rfl h)
      (fun j hj _ => by rw [Function.update_of_ne hj])
  · -- the record in that bucket's cell is of another bucket
    rw [Function.update_of_ne (Ne.symm hEr)]
    generalize hP : my_hash_mask (rec_hashnr hash (D r).data) b r = P at hPE hP3 ⊢
    have hPr : P < r := hP ▸ hlt _
    refine ⟨buckets_move_displace oad nad hH hrel hN hlt hEr hE hP rfl hPE
      (Ne.symm hP3), ?_⟩
    refine perm_move_last hEr' hPr (by simp) (fun h => ?_) (fun j hjE hjP => ?_)
    · simp [Ne.symm h]
    · simp [hjE, hjP]
  · -- identical key-positions, not the last bucket
    refine ⟨buckets_move_same oad nad hH hrel hN hlt hEr hE rfl hPE hsame
      hne, ?_⟩
    exact perm_move_last hEr' hEr' (by simp) (fun h => absurd rfl h)
      (fun j hj _ => by simp [hj])
  · -- identical key-positions, the last bucket
    refine ⟨buckets_move_merge_into oad nad hH hrel hN hlt hEr hE rfl hPE
      hsame (not_not.1 hne), ?_⟩
    exact perm_move_last hEr' hEr' (by simp) (fun h => absurd rfl h)
      (fun j hj _ => by simp [hj])
  · -- different positions merge
    refine ⟨buckets_move_merge_after oad nad hH hrel hN hlt hEr hE rfl hPE
      (not_not.1 hP3).symm hsame, ?_⟩
    exact perm_move_last hEr' hEr' (by simp) (fun h => absurd rfl h)
      (fun j hj _ => by simp [hj])

/-- After the record is unlinked and the last cell emptied, the table keeps the
    invariant, with the records of the table with the free cell. -/
theorem HASH.Wf.move_last_wf (hW : hash.Wf) (hr : 0 < hash.records) (hE : E < hash.records)
    (hH : Links.Buckets (fun j => (D j).next) NO_RECORD (fun j => hash.addr (D j).data)
      (fun j => j < hash.records ∧ j ≠ E)) :
    ({ hash with
        records := hash.records - 1
        blength := if hash.records - 1 < hash.blength >>> 1 then hash.blength >>> 1
          else hash.blength
        array := my_hash_delete.move_last hash hash.blength (hash.records - 1)
          (if hash.records - 1 < hash.blength >>> 1 then hash.blength >>> 1
            else hash.blength) E D } : HASH α K).Wf ∧
    ({ hash with
        records := hash.records - 1
        blength := if hash.records - 1 < hash.blength >>> 1 then hash.blength >>> 1
          else hash.blength
        array := my_hash_delete.move_last hash hash.blength (hash.records - 1)
          (if hash.records - 1 < hash.blength >>> 1 then hash.blength >>> 1
            else hash.blength) E D } : HASH α K).elements.Perm
      (((List.range hash.records).filter (· ≠ E)).map fun j => (D j).data) := by
  obtain ⟨hpow, hhalf, hlt⟩ := hW.delete_bounds hr
  set b' := if hash.records - 1 < hash.blength >>> 1 then hash.blength >>> 1
    else hash.blength with hb'
  have hr' : hash.records - 1 + 1 = hash.records := by omega
  rcases Nat.lt_or_ge 1 hash.records with hr1 | hr1
  · -- a record is left: the six ways of `move_last`
    have hmask : ∀ y, my_hash_mask (rec_hashnr hash y) hash.blength hash.records =
        hash.addr y := fun y => hW.mask_eq hr _
    have hH' : Links.Buckets (fun j => (D j).next) NO_RECORD
        (fun j => my_hash_mask (rec_hashnr hash (D j).data) hash.blength (hash.records - 1 + 1))
        (fun j => j < hash.records - 1 + 1 ∧ j ≠ E) := by
      simp only [hr', hmask]
      exact hH
    have hrel : ∀ y, my_hash_mask (rec_hashnr hash y) b' (hash.records - 1) =
        if my_hash_mask (rec_hashnr hash y) hash.blength (hash.records - 1 + 1) =
          hash.records - 1 then hash.records - 1 - b' / 2
        else my_hash_mask (rec_hashnr hash y) hash.blength (hash.records - 1 + 1) := fun y => by
      rw [hr']
      exact hW.delete_addr hr1 _
    obtain ⟨n, hn⟩ := hpow
    have hnew : ∀ y, my_hash_mask (rec_hashnr hash y) b' (hash.records - 1) =
        LinearHash.addr (rec_hashnr hash y).toNat b' (hash.records - 1) := fun y =>
      my_hash_mask_eq hn (by omega)
    have hlt' : ∀ y, my_hash_mask (rec_hashnr hash y) b' (hash.records - 1) <
        hash.records - 1 := fun y => by
      rw [hnew]
      exact LinearHash.addr_lt (by rw [hn]; exact Nat.two_pow_pos n) hhalf (by omega)
    obtain ⟨hB, hperm⟩ := my_hash_delete.move_last_spec hH' hrel hlt'
      (by have := hW.records_le; omega) (by omega)
    rw [hr'] at hperm
    refine ⟨⟨⟨n, hn⟩, hhalf, hlt, ?_⟩, hperm⟩
    show Links.Buckets (fun j => (my_hash_delete.move_last hash hash.blength (hash.records - 1)
        b' E D j).next) NO_RECORD
      (fun j => LinearHash.addr (rec_hashnr hash (my_hash_delete.move_last hash hash.blength
        (hash.records - 1) b' E D j).data).toNat b' (hash.records - 1)) (· < hash.records - 1)
    simp only [← hnew]
    exact hB
  · -- the last record is deleted: the table is empty
    have hr1' : hash.records = 1 := by omega
    have hE0 : E = 0 := by omega
    refine ⟨⟨⟨_, hpow.choose_spec⟩, hhalf, hlt, fun i hi => absurd hi (by simp; omega)⟩, ?_⟩
    simp [HASH.elements, hr1', hE0]

end move_last

/-! ## 6. The delete -/

section delete

variable [DecidableEq α] {hash : HASH α K} {record : α}

/-- The search of `my_hash_delete` on a table that keeps the invariant: from the record's
    bucket, it stops at the first copy of the record in that bucket's chain. -/
theorem HASH.Wf.delete_find_of_mem (hW : hash.Wf) (hmem : record ∈ hash.elements) :
    ∃ pre p post, hash.InChain (hash.addr record) pre p post ∧ (hash.array p).data = record ∧
      my_hash_delete.find hash.array record hash.records none
        (my_hash_mask (rec_hashnr hash record) hash.blength hash.records) =
        some (pre.getLast?, p) := by
  obtain ⟨j, hj, hjr⟩ : ∃ j, j < hash.records ∧ (hash.array j).data = record := by
    simpa [HASH.elements] using hmem
  have hr : 0 < hash.records := by omega
  have hlab : hash.label j = hash.addr record := by rw [HASH.label, hjr]
  obtain ⟨l, hl, hlmem⟩ := hW.buckets j hj
  rw [hlab] at hl hlmem
  -- the first copy of the record in the chain
  set keep : Nat → Bool := fun c => decide ((hash.array c).data ≠ record) with hkeep
  have hdrop : l.dropWhile keep ≠ [] := fun h => by
    have := List.dropWhile_eq_nil_iff.1 h j ((hlmem j).2 ⟨hj, hlab⟩)
    simp [hkeep, hjr] at this
  obtain ⟨p, post, hpp⟩ : ∃ p post, l.dropWhile keep = p :: post := by
    cases h : l.dropWhile keep with
    | nil => exact absurd h hdrop
    | cons p post => exact ⟨p, post, rfl⟩
  have hp : (hash.array p).data = record := by
    have hhead : ∀ (m : List Nat) (hm : m ≠ []), m = p :: post → m.head hm = p := by
      rintro m hm rfl
      rfl
    have := List.head_dropWhile_not keep hdrop
    rw [hhead _ hdrop hpp] at this
    simpa [hkeep] using this
  have hsplit : l = l.takeWhile keep ++ p :: post := by
    rw [← hpp, List.takeWhile_append_dropWhile]
  set pre := l.takeWhile keep
  have hIn : hash.InChain (hash.addr record) pre p post :=
    ⟨hW, hsplit ▸ hl, fun c => by rw [← hsplit]; exact hlmem c⟩
  refine ⟨pre, p, post, hIn, hp, ?_⟩
  rw [hW.mask_eq hr, ← HASH.addr, my_hash_delete.find_eq_some (hsplit ▸ hl)
    (fun q hq => by simpa [hkeep] using List.mem_takeWhile_imp hq) hp, Option.or_none]
  have hlen := hl.length_le fun c hc => ((hlmem c).1 hc).1
  rw [hsplit] at hlen
  simp at hlen
  omega

/-- The search of `my_hash_delete` finds nothing for a record the table does not hold:
    the links from the record's bucket lead through cells in use only. -/
theorem HASH.Wf.delete_find_of_not_mem (hW : hash.Wf) (hr : 0 < hash.records)
    (hmem : record ∉ hash.elements) :
    my_hash_delete.find hash.array record hash.records none
      (my_hash_mask (rec_hashnr hash record) hash.blength hash.records) = none := by
  have ht := hW.mask_lt hr (rec_hashnr hash record)
  set t := my_hash_mask (rec_hashnr hash record) hash.blength hash.records
  -- cell `t` is in use, so in a chain: walk its tail
  obtain ⟨l, hl, hlmem⟩ := hW.buckets t ht
  obtain ⟨l₁, l₂, hsplit⟩ := List.append_of_mem ((hlmem t).2 ⟨ht, rfl⟩)
  rw [hsplit] at hl hlmem
  have htail := hl.of_append
  have hlive : ∀ c ∈ t :: l₂, c < hash.records := fun c hc =>
    ((hlmem c).1 (List.mem_append_right _ hc)).1
  refine my_hash_delete.find_eq_none htail (List.cons_ne_nil _ _) (fun c hc hcr => ?_)
    (htail.length_le hlive)
  exact hmem (by simpa [HASH.elements] using ⟨c, hlive c hc, hcr⟩)

/-- **`my_hash_delete` keeps the invariant.** On a table that keeps it, deleting a record
    the table holds succeeds and leaves a table that keeps it; deleting a record it does
    not hold fails and leaves the table as it was. Either way one copy of the record is
    gone from the table's records. -/
theorem my_hash_delete_spec (hW : hash.Wf) (record : α) :
    (my_hash_delete hash record).2.Wf ∧
    ((my_hash_delete hash record).1 = true ↔ record ∉ hash.elements) ∧
    ((my_hash_delete hash record).1 = true → (my_hash_delete hash record).2 = hash) ∧
    (my_hash_delete hash record).2.elements.Perm (hash.elements.erase record) := by
  unfold my_hash_delete
  by_cases hr0 : hash.records = 0
  · -- an empty table has nothing to delete
    have hnil : hash.elements = [] := by simp [HASH.elements, hr0]
    rw [if_pos hr0, hnil]
    exact ⟨hW, ⟨fun _ => List.not_mem_nil, fun _ => rfl⟩, fun _ => rfl, by rw [← hnil]; simp [hnil]⟩
  rw [if_neg hr0]
  by_cases hmem : record ∈ hash.elements
  · obtain ⟨pre, p, post, hIn, hp, hfind⟩ := hW.delete_find_of_mem hmem
    rcases hu : my_hash_delete.unlink hash.array pre.getLast? p with ⟨E, D⟩
    obtain ⟨hE, hH, hperm⟩ := hIn.unlink_spec hu
    obtain ⟨hW', hperm'⟩ := hW.move_last_wf (by omega) hE hH
    simp only [hfind, hu]
    rw [hp] at hperm
    exact ⟨hW', ⟨fun h => by simp at h, fun h => absurd hmem h⟩, fun h => by simp at h,
      hperm'.trans hperm⟩
  · rw [hW.delete_find_of_not_mem (by omega) hmem]
    exact ⟨hW, ⟨fun _ => hmem, fun _ => rfl⟩, fun _ => rfl, by rw [List.erase_of_not_mem hmem]⟩

end delete

end AliSql
