import Mathlib
import AliSql.Mysys.HashInsert
import AliSql.Mysys.HashDelete

/-!
# Runs of a `HASH` (`mysys/hash.c`)

`my_hash_insert` and `my_hash_delete` keep a `HASH` a linear-hashing table that holds the
records the calls put in and did not take out. The module proves it in two layers:

* what the calls are for: a machine on multisets of records (`Hash_call.spec`) that refuses
  an insert into a `HASH_UNIQUE` table holding a record of the same key, and a delete of a
  record it does not hold, and otherwise adds or removes one copy; `Hash_call.contents`
  is what it holds after a list of calls;
* whole runs (`Hash_reachable`): from `my_hash_reset` through any calls, each insert made
  while `records < NO_RECORD`, `Hash_inv` holds: the fields `my_hash_init` set are kept,
  the table keeps `HASH.Wf`, and its records are those of the multiset machine. So every
  call answers as the machine does, and `my_hash_search` finds a key exactly when one of
  those records has it.

The hash function need only agree with the comparison of keys (`HASH.Compat`).
-/

set_option autoImplicit false

namespace AliSql

variable {α K : Type}

/-! ## 1. What the calls are for -/

section spec

/-- A call that changes a `HASH`. -/
inductive Hash_call (α : Type) where
  | insert (record : α)
  | delete (record : α)

variable [DecidableEq α]

/-- The calls on a multiset of records. An insert is refused (`true`) when the table is
    `unique` and holds a record whose key is the same (`same`), a delete when the record is
    not held; otherwise one copy is added or removed (`false`). -/
def Hash_call.spec (unique : Bool) (same : α → α → Bool) :
    Hash_call α → Multiset α → Bool × Multiset α
  | .insert record, M =>
    if unique = true ∧ M.countP (fun x => same x record = true) ≠ 0 then (true, M)
    else (false, record ::ₘ M)
  | .delete record, M => if record ∈ M then (false, M.erase record) else (true, M)

/-- The records the calls `h` leave, the last call first. -/
def Hash_call.contents (unique : Bool) (same : α → α → Bool) : List (Hash_call α) → Multiset α
  | [] => 0
  | c :: h => (c.spec unique same (contents unique same h)).2

/-- A refused call changes nothing. -/
theorem Hash_call.spec_of_refused {unique : Bool} {same : α → α → Bool} {c : Hash_call α}
    {M : Multiset α} (h : (c.spec unique same M).1 = true) : (c.spec unique same M).2 = M := by
  cases c with
  | insert record =>
    simp only [Hash_call.spec] at h ⊢
    split_ifs at h ⊢
    rfl
  | delete record =>
    simp only [Hash_call.spec] at h ⊢
    split_ifs at h ⊢
    rfl

end spec

/-! ## 2. The fields no call changes -/

section params

/-- The fields `my_hash_init` sets and the calls never change. -/
def HASH.params (hash : HASH α K) : Nat × (α → K) × (K → UInt32) × (K → K → Bool) :=
  (hash.flags, hash.get_key, hash.hash_function, hash.key_eq)

/-- `HASH_UNIQUE` is set. -/
def HASH.unique (hash : HASH α K) : Bool := hash.flags &&& HASH_UNIQUE != 0

/-- Two records whose keys the table finds equal. -/
def HASH.same (hash : HASH α K) (x y : α) : Bool :=
  hash.key_eq (hash.get_key x) (hash.get_key y)

variable {hash hash' : HASH α K}

theorem HASH.params_eq_iff : hash.params = hash'.params ↔
    hash.flags = hash'.flags ∧ hash.get_key = hash'.get_key ∧
      hash.hash_function = hash'.hash_function ∧ hash.key_eq = hash'.key_eq := by
  simp [HASH.params]

theorem HASH.Compat.of_params (hc : hash'.Compat) (hp : hash.params = hash'.params) :
    hash.Compat := by
  obtain ⟨-, -, hf, hk⟩ := HASH.params_eq_iff.1 hp
  intro k k' h
  rw [hk] at h
  rw [hf]
  exact hc k k' h

@[simp] theorem my_hash_reset_params (hash : HASH α K) :
    (my_hash_reset hash).params = hash.params := rfl

@[simp] theorem my_hash_insert_params (hash : HASH α K) (record : α) :
    (my_hash_insert hash record).2.params = hash.params := by
  unfold my_hash_insert
  split_ifs
  · rfl
  · rcases my_hash_insert.split hash record with ⟨e, D⟩
    rfl

@[simp] theorem my_hash_delete_params [DecidableEq α] (hash : HASH α K) (record : α) :
    (my_hash_delete hash record).2.params = hash.params := by
  unfold my_hash_delete
  split_ifs
  · rfl
  · split
    · rfl
    · rfl

end params

/-! ## 3. Runs -/

section runs

variable [DecidableEq α]

/-- The runs the invariant covers: from `my_hash_reset` of a table `init`, calls of
    `my_hash_insert` and `my_hash_delete`, each insert made while `records < NO_RECORD`;
    `h` lists the calls made, the last first. -/
inductive Hash_reachable (init : HASH α K) : HASH α K → List (Hash_call α) → Prop
  | reset : Hash_reachable init (my_hash_reset init) []
  | insert {t : HASH α K} {h : List (Hash_call α)} (record : α) :
      Hash_reachable init t h → t.records < NO_RECORD →
      Hash_reachable init (my_hash_insert t record).2 (.insert record :: h)
  | delete {t : HASH α K} {h : List (Hash_call α)} (record : α) :
      Hash_reachable init t h → Hash_reachable init (my_hash_delete t record).2 (.delete record :: h)

/-- The invariant of a run: the fields of `init` that no call changes, `HASH.Wf`, and the
    records of the multiset machine after the calls `h`. -/
structure Hash_inv (init t : HASH α K) (h : List (Hash_call α)) : Prop where
  params : t.params = init.params
  wf : t.Wf
  contents : (t.elements : Multiset α) = Hash_call.contents init.unique init.same h

variable {init t : HASH α K} {h : List (Hash_call α)}

theorem Hash_inv.reset : Hash_inv init (my_hash_reset init) [] where
  params := rfl
  wf := my_hash_reset_wf init
  contents := by simp [HASH.elements, my_hash_reset, Hash_call.contents]

theorem Hash_inv.unique_eq (hi : Hash_inv init t h) : t.unique = init.unique := by
  rw [HASH.unique, HASH.unique, (HASH.params_eq_iff.1 hi.params).1]

theorem Hash_inv.same_eq (hi : Hash_inv init t h) : t.same = init.same := by
  obtain ⟨-, hg, -, hk⟩ := HASH.params_eq_iff.1 hi.params
  funext x y
  rw [HASH.same, HASH.same, hg, hk]

/-- An insert answers as the multiset machine does. -/
theorem Hash_inv.insert_answer (hc : init.Compat) (hi : Hash_inv init t h) (record : α) :
    (my_hash_insert t record).1 = ((Hash_call.insert record).spec init.unique init.same
      (Hash_call.contents init.unique init.same h)).1 := by
  have hrefused := my_hash_insert_refused hi.wf (hc.of_params hi.params) record
  -- the machine's condition, read on the table
  have hcond : (init.unique = true ∧
      (Hash_call.contents init.unique init.same h).countP (fun x => init.same x record = true)
        ≠ 0) ↔
      t.flags &&& HASH_UNIQUE ≠ 0 ∧
        ∃ x ∈ t.elements, t.key_eq (t.get_key x) (t.get_key record) = true := by
    rw [← hi.contents, ← hi.unique_eq, ← hi.same_eq, Multiset.coe_countP,
      ← Nat.pos_iff_ne_zero, List.countP_pos_iff]
    simp only [HASH.unique, HASH.same, bne_iff_ne, ne_eq]
    exact and_congr_right fun _ => exists_congr fun x => and_congr_right fun _ => decide_eq_true_iff
  simp only [Hash_call.spec]
  by_cases hr : init.unique = true ∧
      (Hash_call.contents init.unique init.same h).countP (fun x => init.same x record = true)
        ≠ 0
  · rw [if_pos hr]
    exact hrefused.2 (hcond.1 hr)
  · rw [if_neg hr]
    exact Bool.eq_false_iff.2 fun hans => hr (hcond.2 (hrefused.1 hans))

/-- A delete answers as the multiset machine does. -/
theorem Hash_inv.delete_answer (hi : Hash_inv init t h) (record : α) :
    (my_hash_delete t record).1 = ((Hash_call.delete record).spec init.unique init.same
      (Hash_call.contents init.unique init.same h)).1 := by
  have hmiss := (my_hash_delete_spec hi.wf record).2.1
  simp only [Hash_call.spec, ← hi.contents, Multiset.mem_coe]
  by_cases hr : record ∈ t.elements
  · rw [if_pos hr]
    exact Bool.eq_false_iff.2 fun hans => hmiss.1 hans hr
  · rw [if_neg hr]
    exact hmiss.2 hr

/-- **One insert**, made while `records < NO_RECORD`, keeps the invariant. -/
theorem Hash_inv.insert (hc : init.Compat) (hi : Hash_inv init t h) (hN : t.records < NO_RECORD)
    (record : α) : Hash_inv init (my_hash_insert t record).2 (.insert record :: h) := by
  obtain ⟨hW, hsame, hperm⟩ := my_hash_insert_spec hi.wf hN record
  have hans := hi.insert_answer hc record
  refine ⟨by rw [my_hash_insert_params, hi.params], hW, ?_⟩
  rw [Hash_call.contents]
  cases hr : (my_hash_insert t record).1
  · -- taken: one copy more
    rw [hr] at hans
    have hspec : ((Hash_call.insert record).spec init.unique init.same
        (Hash_call.contents init.unique init.same h)).2 =
        record ::ₘ Hash_call.contents init.unique init.same h := by
      simp only [Hash_call.spec] at hans ⊢
      split_ifs at hans ⊢
      rfl
    rw [hspec, ← hi.contents, Multiset.cons_coe, Multiset.coe_eq_coe]
    exact hperm hr
  · -- refused: nothing changes
    rw [hsame hr, Hash_call.spec_of_refused (hans ▸ hr), hi.contents]

/-- **One delete** keeps the invariant. -/
theorem Hash_inv.delete (hi : Hash_inv init t h) (record : α) :
    Hash_inv init (my_hash_delete t record).2 (.delete record :: h) := by
  obtain ⟨hW, hmiss, hsame, hperm⟩ := my_hash_delete_spec hi.wf record
  have hans := hi.delete_answer record
  refine ⟨by rw [my_hash_delete_params, hi.params], hW, ?_⟩
  rw [Hash_call.contents]
  cases hr : (my_hash_delete t record).1
  · -- found: one copy less
    have hmem : record ∈ t.elements := not_not.1 fun hn => by simp [hmiss.2 hn] at hr
    have hspec : ((Hash_call.delete record).spec init.unique init.same
        (Hash_call.contents init.unique init.same h)).2 =
        (Hash_call.contents init.unique init.same h).erase record := by
      rw [← hi.contents]
      simp [Hash_call.spec, hmem]
    rw [hspec, ← hi.contents, Multiset.coe_erase, Multiset.coe_eq_coe]
    exact hperm
  · -- missed: nothing changes
    rw [hsame hr, Hash_call.spec_of_refused (hans ▸ hr), hi.contents]

/-- **The invariant of every run.** -/
theorem Hash_inv.of_reachable (hc : init.Compat) (hr : Hash_reachable init t h) :
    Hash_inv init t h := by
  induction hr with
  | reset => exact Hash_inv.reset
  | insert record _ hN ih => exact ih.insert hc hN record
  | delete record _ ih => exact ih.delete record

/-- **A `HASH` holds the records of the calls made on it.** Along every run of
    `my_hash_insert` and `my_hash_delete` calls from `my_hash_reset`, each insert made while
    `records < NO_RECORD`, with a hash function that agrees with the comparison of keys:
    the table keeps the invariant; its records are those the multiset machine holds after
    the same calls; `my_hash_search` finds a key exactly when one of those records has it;
    and the next insert or delete answers as the machine does. -/
theorem hash_runs_hold_contents (hc : init.Compat) (hr : Hash_reachable init t h) :
    t.Wf ∧ (t.elements : Multiset α) = Hash_call.contents init.unique init.same h ∧
      (∀ key, (my_hash_search t key).isSome ↔
        ∃ x ∈ Hash_call.contents init.unique init.same h,
          init.key_eq (init.get_key x) key = true) ∧
      (∀ record, (my_hash_insert t record).1 = ((Hash_call.insert record).spec init.unique
        init.same (Hash_call.contents init.unique init.same h)).1) ∧
      (∀ record, (my_hash_delete t record).1 = ((Hash_call.delete record).spec init.unique
        init.same (Hash_call.contents init.unique init.same h)).1) := by
  have hi := Hash_inv.of_reachable hc hr
  obtain ⟨-, hg, -, hk⟩ := HASH.params_eq_iff.1 hi.params
  refine ⟨hi.wf, hi.contents, fun key => ?_, hi.insert_answer hc, hi.delete_answer⟩
  rw [my_hash_search_isSome hi.wf (hc.of_params hi.params), ← hi.contents, hg, hk]
  simp

theorem hash_runs_hold_contents_three_calls :
    five_table.Compat ∧ ∃ t, Hash_reachable five_table t [.delete 5, .insert 7, .insert 5] ∧
      (t.Wf ∧ (t.elements : Multiset Nat) =
        Hash_call.contents five_table.unique five_table.same [.delete 5, .insert 7, .insert 5] ∧
      (∀ key, (my_hash_search t key).isSome ↔
        ∃ x ∈ Hash_call.contents five_table.unique five_table.same
          [.delete 5, .insert 7, .insert 5],
          five_table.key_eq (five_table.get_key x) key = true) ∧
      (∀ record, (my_hash_insert t record).1 = ((Hash_call.insert record).spec
        five_table.unique five_table.same (Hash_call.contents five_table.unique five_table.same
          [.delete 5, .insert 7, .insert 5])).1) ∧
      (∀ record, (my_hash_delete t record).1 = ((Hash_call.delete record).spec
        five_table.unique five_table.same (Hash_call.contents five_table.unique five_table.same
          [.delete 5, .insert 7, .insert 5])).1)) := by
  have hr : Hash_reachable five_table _ [.delete 5, .insert 7, .insert 5] :=
    .delete 5 (.insert 7 (.insert 5 .reset (by decide)) (by decide))
  exact ⟨five_table_compat, _, hr, hash_runs_hold_contents five_table_compat hr⟩

end runs

end AliSql
