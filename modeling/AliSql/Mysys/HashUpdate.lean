import Mathlib
import AliSql.Mysys.HashInsert
import AliSql.Mysys.HashDelete

/-!
# `my_hash_update` keeps the invariant (`mysys/hash.c`)

The caller of `my_hash_update` has changed the key of `record` in place, from `old_key`:
the table's chains are still those of the table before the change, `HASH.with_old_key`,
in which `record` has `old_key`. `my_hash_update` unlinks the record from the chain of
its old bucket with the code of `my_hash_delete` (`my_hash_delete.unlink`), and links it
into the chain of its new bucket through the cell that the unlink left free, much as
`my_hash_insert` places a new record. The proofs reuse both: `HASH.InChain.unlink_spec`
for the first half, and the placement cases of `my_hash_insert` for the second, with the
one case that only the update has, the record linked behind the head of its new chain
(`buckets_place_behind_head`).

* `my_hash_update_spec`: if the table before the change kept the invariant and held the
  record once, the update either refuses (a duplicate new key on a `HASH_UNIQUE` table)
  and changes nothing, or leaves a table that keeps the invariant under the new key,
  with the same records.
-/

set_option autoImplicit false

namespace AliSql

variable {α K : Type}

/-! ## 1. The table before the key changed -/

section old_key

variable [DecidableEq α] {hash : HASH α K} {record : α} {old_key : K}

/-- The table as it was before the caller changed the key of `record` from `old_key`. -/
def HASH.with_old_key (hash : HASH α K) (record : α) (old_key : K) : HASH α K :=
  { hash with get_key := fun x => if x = record then old_key else hash.get_key x }

theorem rec_hashnr_with_old_key_of_ne {y : α} (hy : y ≠ record) :
    rec_hashnr (hash.with_old_key record old_key) y = rec_hashnr hash y := by
  simp [rec_hashnr, calc_hash, HASH.with_old_key, hy]

theorem rec_hashnr_with_old_key_self :
    rec_hashnr (hash.with_old_key record old_key) record = calc_hash hash old_key := by
  simp [rec_hashnr, calc_hash, HASH.with_old_key]

end old_key

/-! ## 2. The search loop is `my_hash_delete`'s -/

section find

variable [DecidableEq α]

/-- The search loop of `my_hash_update` is the search loop of `my_hash_delete`: the source
    writes the same walk twice. -/
theorem my_hash_update.find_eq (data : Nat → HASH_LINK α) (record : α) :
    my_hash_update.find data record = my_hash_delete.find data record := by
  funext fuel
  induction fuel with
  | zero => rfl
  | succ f ih =>
    funext previous idx
    simp only [my_hash_update.find, my_hash_delete.find, ih]

end find

/-! ## 3. The record linked behind the head of its new chain -/

section behind

variable {m e t : Nat} (ad : α → Nat) {record : α} {D : Nat → HASH_LINK α}

/-- **The record's new bucket `t` heads a chain**: the record goes to the free cell, linked
    right behind `t`. -/
theorem buckets_place_behind_head
    (hD : Links.Buckets (fun j => (D j).next) NO_RECORD (fun j => ad (D j).data)
      (fun j => j < m ∧ j ≠ e))
    (he : e < m) (hm : m ≤ NO_RECORD) (ht : t < m) (hte : t ≠ e)
    (hrec : ad record = t) (htt : ad (D t).data = t) :
    Links.Buckets
      (fun j => (Function.update (Function.update D e ⟨(D t).next, record⟩) t
        { D t with next := e } j).next) NO_RECORD
      (fun j => ad (Function.update (Function.update D e ⟨(D t).next, record⟩) t
        { D t with next := e } j).data) (· < m) := by
  set D' := Function.update (Function.update D e ⟨(D t).next, record⟩) t
    { D t with next := e } with hD'
  have hD't : D' t = { D t with next := e } := by simp [hD']
  have hD'e : D' e = ⟨(D t).next, record⟩ := by simp [hD', hte.symm]
  have hD'o : ∀ j, j ≠ e → j ≠ t → D' j = D j := fun j hje hjt => by simp [hD', hje, hjt]
  -- the bucket of each cell: the free cell now holds the record, of bucket `t`
  have hlab : ∀ b, ad (D' b).data = if b = e then t else ad (D b).data := fun b => by
    by_cases hbe : b = e
    · rw [if_pos hbe, hbe, hD'e, hrec]
    rw [if_neg hbe]
    by_cases hbt : b = t
    · rw [hbt, hD't]
    · rw [hD'o b hbe hbt]
  -- the chain of bucket `t` before: `t`, then the rest
  obtain ⟨l, hl, hmem⟩ := hD t ⟨ht, hte⟩
  dsimp only at hl hmem
  rw [htt] at hl hmem
  obtain ⟨rest, rfl⟩ : ∃ rest, l = t :: rest := by
    cases l with
    | nil => exact absurd ((hmem t).2 ⟨⟨ht, hte⟩, htt⟩) List.not_mem_nil
    | cons a rest => exact ⟨rest, by rw [(Links.chain_cons.1 hl).1]⟩
  obtain ⟨-, htN, hrest⟩ := Links.chain_cons.1 hl
  have hrest_ne : ∀ b ∈ rest, b ≠ t ∧ b ≠ e := fun b hb =>
    ⟨fun h => (List.nodup_cons.1 hl.nodup).1 (h ▸ hb),
      ((hmem b).1 (List.mem_cons_of_mem _ hb)).1.2⟩
  refine hD.of_change (S := (· = t)) ?_ ?_ ?_
  · intro i _ hit
    rw [hit]
    refine ⟨t :: e :: rest, ?_, fun b => ?_⟩
    · have heN : e ≠ NO_RECORD := by omega
      refine Links.chain_cons.2 ⟨rfl, htN, Links.chain_cons.2 ⟨by simp [hD't], heN, ?_⟩⟩
      rw [hD'e]
      exact hrest.congr fun b hb => by rw [hD'o b (hrest_ne b hb).2 (hrest_ne b hb).1]
    · rw [hlab, List.mem_cons, List.mem_cons]
      constructor
      · rintro (rfl | rfl | hb)
        · exact ⟨ht, by rw [if_neg hte, htt]⟩
        · exact ⟨he, if_pos rfl⟩
        · obtain ⟨hbt, hbe⟩ := hrest_ne b hb
          exact ⟨((hmem b).1 (List.mem_cons_of_mem _ hb)).1.1,
            by rw [if_neg hbe, ((hmem b).1 (List.mem_cons_of_mem _ hb)).2]⟩
      · rintro ⟨hb, hbl⟩
        by_cases hbe : b = e
        · exact Or.inr (Or.inl hbe)
        rw [if_neg hbe] at hbl
        rcases List.mem_cons.1 ((hmem b).2 ⟨⟨hb, hbe⟩, hbl⟩) with h | h
        · exact Or.inl h
        · exact Or.inr (Or.inr h)
  · intro b hb hbl
    rw [hlab] at hbl ⊢
    have hbe : b ≠ e := by
      rintro rfl
      exact hbl (if_pos rfl)
    rw [if_neg hbe] at hbl ⊢
    exact ⟨⟨hb, hbe⟩, rfl⟩
  · rintro b ⟨hb, hbe⟩ hbl
    have hbt : b ≠ t := by
      rintro rfl
      exact hbl htt
    rw [hD'o b hbe hbt]
    exact ⟨hb, rfl, rfl⟩

end behind

/-! ## 4. Moving the record to its new bucket -/

section move_data

variable {hash : HASH α K} {record : α} {E idx : Nat} {D : Nat → HASH_LINK α}
  {org_link : HASH_LINK α}

/-- **Moving the record to its new bucket.** Into a table with a free cell `E`, its other
    cells linked by bucket, `move_data` puts the record of `org_link` so that all the cells
    are linked by bucket; they hold the record besides the records they held. -/
theorem my_hash_update.move_data_spec (hN : hash.records ≤ NO_RECORD) (hE : E < hash.records)
    (hlt : ∀ y, my_hash_mask (rec_hashnr hash y) hash.blength hash.records < hash.records)
    (hD : Links.Buckets (fun j => (D j).next) NO_RECORD
      (fun j => my_hash_mask (rec_hashnr hash (D j).data) hash.blength hash.records)
      (fun j => j < hash.records ∧ j ≠ E))
    (horg : org_link.data = record) (hself : E = idx → (D E).data = record) :
    Links.Buckets (fun j => (my_hash_update.move_data hash hash.blength hash.records
        (my_hash_mask (rec_hashnr hash record) hash.blength hash.records) idx E org_link D
        j).next) NO_RECORD
      (fun j => my_hash_mask (rec_hashnr hash (my_hash_update.move_data hash hash.blength
        hash.records (my_hash_mask (rec_hashnr hash record) hash.blength hash.records) idx E
        org_link D j).data) hash.blength hash.records) (· < hash.records) ∧
    ((List.range hash.records).map fun j => (my_hash_update.move_data hash hash.blength
        hash.records (my_hash_mask (rec_hashnr hash record) hash.blength hash.records) idx E
        org_link D j).data).Perm
      (record :: ((List.range hash.records).filter (· ≠ E)).map fun j => (D j).data) := by
  set ad := fun y => my_hash_mask (rec_hashnr hash y) hash.blength hash.records
  have ht := hlt record
  unfold my_hash_update.move_data
  generalize hrec : my_hash_mask (rec_hashnr hash record) hash.blength hash.records = t
    at ht ⊢
  dsimp only
  by_cases hte : t = E
  · -- the record's bucket is the free cell
    subst hte
    rw [if_pos rfl]
    have heq : (Function.update (if t ≠ idx then Function.update D t org_link else D) t
        { (if t ≠ idx then Function.update D t org_link else D) t with next := NO_RECORD }) =
        Function.update D t ⟨NO_RECORD, record⟩ := by
      split_ifs with hti
      · simp [← horg]
      · rw [← hself (not_not.1 hti)]
    rw [heq]
    exact ⟨buckets_place_in_hole ad hD hE hN hrec,
      map_data_perm_of_move hE hE (by simp) (fun h => absurd rfl h)
        (fun j hj _ => by rw [Function.update_of_ne hj])⟩
  rw [if_neg hte]
  have hg : my_hash_rec_mask hash (D t) hash.blength hash.records = ad (D t).data := rfl
  rw [hg]
  by_cases htt : t = ad (D t).data
  · -- the record's bucket heads a chain: the record goes behind its head
    rw [if_neg (not_not.2 htt)]
    have heq : Function.update (Function.update D E { org_link with next := (D t).next }) t
        { Function.update D E { org_link with next := (D t).next } t with next := E } =
        Function.update (Function.update D E ⟨(D t).next, record⟩) t { D t with next := E } := by
      rw [Function.update_of_ne hte]
      congr 2
      rw [← horg]
    rw [heq]
    exact ⟨buckets_place_behind_head ad hD hE hN ht hte hrec htt.symm,
      map_data_perm_of_move hE hE (by simp [Ne.symm hte]) (fun h => absurd rfl h)
        (fun j hje hjE => by
          by_cases hjt : j = t
          · subst hjt
            simp
          · simp [hje, hjt])⟩
  · -- the cell of the record's bucket holds a record of another bucket
    rw [if_pos htt]
    have heq : Function.update (movelink (Function.update D E (D t)) t (ad (D t).data) E
        hash.records) t { org_link with next := NO_RECORD } =
        movelink (Function.update (Function.update D E (D t)) t ⟨NO_RECORD, record⟩) t
          (ad (D t).data) E hash.records := by
      rw [movelink_update_find _ _ _ (Ne.symm htt)]
      congr 1
      rw [← horg]
    rw [heq]
    exact ⟨buckets_place_moved ad hD hE hN ht hte hrec (Ne.symm htt),
      map_data_perm_of_move ht hE (by simp) (fun _ => by simp [Ne.symm hte])
        (fun j hje hjt => by simp [hje, hjt])⟩

end move_data

/-! ## 5. The update -/

section update

variable [DecidableEq α] {hash : HASH α K} {record : α} {old_key : K}

/-- A table with the cells of a table that keeps the invariant, linked by its buckets
    under the new keys, keeps the invariant. -/
theorem HASH.Wf.of_array (hW : (hash.with_old_key record old_key).Wf)
    (hr : 0 < hash.records) {A : Nat → HASH_LINK α}
    (hB : Links.Buckets (fun j => (A j).next) NO_RECORD
      (fun j => my_hash_mask (rec_hashnr hash (A j).data) hash.blength hash.records)
      (· < hash.records)) :
    ({ hash with array := A } : HASH α K).Wf := by
  obtain ⟨n, hn⟩ := hW.blength_pow
  refine ⟨⟨n, hn⟩, hW.half_le, hW.records_lt, ?_⟩
  refine hB.congr_label fun i _ => ?_
  exact (my_hash_mask_eq hn hr).symm

/-- **`my_hash_update` keeps the invariant.** The caller changed the key of `record`, held
    once in a table that kept the invariant under the old key. The update either refuses
    and leaves the table as it is, or leaves a table that keeps the invariant under the
    new key, with the same records. -/
theorem my_hash_update_spec (hW : (hash.with_old_key record old_key).Wf)
    (hone : hash.elements.count record = 1) :
    ((my_hash_update hash record old_key).1 = true →
      (my_hash_update hash record old_key).2 = hash) ∧
    ((my_hash_update hash record old_key).1 = false →
      (my_hash_update hash record old_key).2.Wf ∧
      (my_hash_update hash record old_key).2.elements.Perm hash.elements) := by
  have hmem : record ∈ hash.elements := List.count_pos_iff.1 (by omega)
  have hr : 0 < hash.records := by
    by_contra h
    simp [HASH.elements, show hash.records = 0 by omega] at hmem
  -- the buckets of the records but `record` are those of the table before the change
  have hmask : ∀ y, y ≠ record →
      my_hash_mask (rec_hashnr hash y) hash.blength hash.records =
        (hash.with_old_key record old_key).addr y := fun y hy => by
    rw [HASH.addr, rec_hashnr_with_old_key_of_ne hy]
    exact hW.mask_eq hr _
  unfold my_hash_update
  dsimp only
  split_ifs with hdup hidx
  · exact ⟨fun _ => rfl, fun h => by simp at h⟩
  · -- the old and the new key have one bucket: nothing moves
    refine ⟨fun _ => rfl, fun _ => ⟨?_, List.Perm.refl _⟩⟩
    obtain ⟨n, hn⟩ := hW.blength_pow
    change hash.blength = 2 ^ n at hn
    refine ⟨⟨n, hn⟩, hW.half_le, hW.records_lt, hW.buckets.congr_label fun i _ => ?_⟩
    show LinearHash.addr (rec_hashnr hash (hash.array i).data).toNat hash.blength
      hash.records = (hash.with_old_key record old_key).label i
    rw [← my_hash_mask_eq hn hr]
    by_cases hi : (hash.array i).data = record
    · -- the record's bucket under the old key is the one under the new key
      have hold : (hash.with_old_key record old_key).label i =
          my_hash_mask (calc_hash hash old_key) hash.blength hash.records := by
        show LinearHash.addr (rec_hashnr (hash.with_old_key record old_key)
          (hash.array i).data).toNat hash.blength hash.records = _
        rw [hi, rec_hashnr_with_old_key_self, my_hash_mask_eq hn hr]
      rw [hold, hidx, hi]
    · exact hmask _ hi
  · -- the record is found in the chain of its old bucket
    obtain ⟨pre, p, post, hIn, hp, hfind⟩ := hW.delete_find_of_mem hmem
    rw [rec_hashnr_with_old_key_self] at hfind
    change my_hash_delete.find hash.array record hash.records none
      (my_hash_mask (calc_hash hash old_key) hash.blength hash.records) = _ at hfind
    rw [my_hash_update.find_eq, hfind]
    dsimp only
    refine ⟨fun h => by simp at h, fun _ => ?_⟩
    rcases hu : my_hash_delete.unlink hash.array pre.getLast? p with ⟨E, D⟩
    obtain ⟨hE, hH, hperm⟩ := hIn.unlink_spec hu
    change (hash.array p).data = record at hp
    change (((List.range hash.records).filter (· ≠ E)).map fun j => (D j).data).Perm
      (hash.elements.erase (hash.array p).data) at hperm
    rw [hp] at hperm
    -- no cell in use holds the record any more
    have hnot : ∀ j, j < hash.records → j ≠ E → (D j).data ≠ record := fun j hj hjE hjr => by
      have hin : (D j).data ∈ hash.elements.erase record :=
        hperm.mem_iff.1 (List.mem_map.2 ⟨j, by simp [hj, hjE], rfl⟩)
      rw [hjr] at hin
      have := List.count_pos_iff.2 hin
      rw [List.count_erase_self, hone] at this
      omega
    have hD : Links.Buckets (fun j => (D j).next) NO_RECORD
        (fun j => my_hash_mask (rec_hashnr hash (D j).data) hash.blength hash.records)
        (fun j => j < hash.records ∧ j ≠ E) :=
      hH.congr_label fun i hi => hmask _ (hnot i hi.1 hi.2)
    have hN : hash.records ≤ NO_RECORD := hW.records_le
    have hlt : ∀ y, my_hash_mask (rec_hashnr hash y) hash.blength hash.records <
        hash.records := fun y => hW.mask_lt hr (rec_hashnr hash y)
    obtain ⟨hB, hperm'⟩ := my_hash_update.move_data_spec hN hE hlt hD hp
      (fun (hEp : E = p) => by rw [hEp, hIn.unlink_free_self hu hEp]; exact hp)
    have hrelink : my_hash_update.relink hash hash.blength hash.records
        (my_hash_mask (rec_hashnr hash record) hash.blength hash.records) pre.getLast? p =
        my_hash_update.move_data hash hash.blength hash.records
          (my_hash_mask (rec_hashnr hash record) hash.blength hash.records) p E
          (hash.array p) D := by
      simp only [my_hash_update.relink, hu]
    rw [hrelink]
    exact ⟨hW.of_array hr hB,
      hperm'.trans ((hperm.cons record).trans (List.perm_cons_erase hmem).symm)⟩

/-- The key of `5` changed from `3` to `5`. -/
theorem my_hash_update_spec_five :
    (five_table.with_old_key 5 3).Wf ∧ five_table.elements.count 5 = 1 ∧
      ((my_hash_update five_table 5 3).1 = true → (my_hash_update five_table 5 3).2 = five_table) ∧
      ((my_hash_update five_table 5 3).1 = false →
        (my_hash_update five_table 5 3).2.Wf ∧
        (my_hash_update five_table 5 3).2.elements.Perm five_table.elements) :=
  have hW : (five_table.with_old_key 5 3).Wf := HASH.wf_single _ rfl rfl rfl
  have hone : five_table.elements.count 5 = 1 := by decide
  ⟨hW, hone, my_hash_update_spec hW hone⟩

end update

end AliSql
