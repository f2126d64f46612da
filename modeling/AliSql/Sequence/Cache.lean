import Mathlib
import AliSql.Include.Myisampack
import AliSql.Lib.Machine

/-!
# `sql/ha_sequence.cc`: the sequence engine and its cache

A sequence is a one-row base table of nine BIGINT columns (`st_seq_cache`) and a
`Sequence_share`, shared by every handler of the table, that caches a batch of values.
A `NEXTVAL` read (`ha_sequence::rnd_next`) takes the next value from the cache
(`Sequence_share::quick_read`); when the batch is spent or the cache was invalidated it
runs an autonomous transaction (`ha_sequence::update_and_reload`) that reads the row,
computes the next batch and the row to write back (`Sequence_share::reload_cache`),
updates the row and commits.

What the model keeps of the source:

* every arithmetic step on the source's `ulonglong`s is on `UInt64`, and the source's
  `longlong left` is the two's-complement reading `longlong_of`;
* the row is written back through `Field_longlong::store(value, true)` into signed
  columns (`seq_field_store`): a value with the sign bit set is stored as
  `LONGLONG_MAX`;
* the storage engine and the binlog enter as `Env`, the error codes of their calls in
  one read; a failed commit rolls the row back;
* `Sequence_event` is what can happen between reads under `seq_mutex`: a read, an
  invalidation by `write_row`, `update_row` or `delete_row` of another statement (with
  the row left as it was), and a restart, which replaces the share with a new one whose
  `init` leaves the cache invalid.

`rnd_next` is modelled on its `NEXTVAL` path: a scan's first row, read through the
cache. Its other paths (reads of the base table for updates, with
`sequence_read_skip_cache` or as a plain select, and `CURRVAL` from the session) touch
neither the share nor the row.
-/

set_option autoImplicit false

namespace AliSql

/-! ## 1. The row and its columns -/

/-- `ST_SEQ_CACHE`: the columns of `seq_fields`, in `enum_sequence_field` order. The
    `caches` and `durable` arrays of `ha_sequence.cc`, indexed by that enum, are rows. -/
structure st_seq_cache where
  currval : UInt64
  nextval : UInt64
  minvalue : UInt64
  maxvalue : UInt64
  start : UInt64
  increment : UInt64
  cache : UInt64
  cycle : UInt64
  round : UInt64
deriving DecidableEq, Repr

/-- The same operation on every column: the loops over `table->field` and `seq_fields`. -/
def st_seq_cache.map (f : UInt64 → UInt64) (r : st_seq_cache) : st_seq_cache :=
  ⟨f r.currval, f r.nextval, f r.minvalue, f r.maxvalue, f r.start, f r.increment,
    f r.cache, f r.cycle, f r.round⟩

/-- `check_sequence_values_valid`: `true` when the row is invalid. Nothing is asked of
    `nextval`, `cache`, `cycle` or `round`. -/
def check_sequence_values_valid (items : st_seq_cache) : Bool :=
  !(items.maxvalue ≥ items.minvalue && items.start ≥ items.minvalue &&
    items.increment ≥ 1 && items.maxvalue > items.start)

def LONGLONG_MAX : UInt64 := 0x7FFFFFFFFFFFFFFF

/-- `(longlong) x`. -/
def longlong_of (x : UInt64) : Int := signed 64 x.toNat

/-- `Field_longlong::store(nr, unsigned_val)`, read back by `(ulonglong) val_int()`: a
    negative `longlong` is out of range when the column's signedness and the value's
    differ, and is stored as the end of the column's range. -/
def Field_longlong_store (unsigned_flag : Bool) (nr : UInt64) (unsigned_val : Bool) : UInt64 :=
  if longlong_of nr < 0 ∧ unsigned_flag ≠ unsigned_val then
    if unsigned_flag then 0 else LONGLONG_MAX
  else nr

/-- `(*field)->store(value, true)` on a sequence column: `prepare_sequence_fields` creates
    the columns `NOT NULL` without `UNSIGNED_FLAG`. -/
def seq_field_store (v : UInt64) : UInt64 := Field_longlong_store false v true

/-! ## 2. The share -/

inductive enum_cache_state where
  | CACHE_INVALID
  | CACHE_ROUND_OUT
  | CACHE_HIT
  | CACHE_ERROR
deriving DecidableEq, Repr

open enum_cache_state

def HA_ERR_SEQUENCE_RUN_OUT : Nat := 192
def HA_ERR_SEQUENCE_INVALID : Nat := 193
def HA_ERR_SEQUENCE_ACCESS_ERROR : Nat := 195

/-- The cached batch: values are handed out from `caches.nextval` up to `cache_end`. -/
structure Sequence_share where
  caches : st_seq_cache
  cache_end : UInt64
  cache_valid : Bool
deriving DecidableEq, Repr

def Sequence_share.set_valid (s : Sequence_share) (valid : Bool) : Sequence_share :=
  { s with cache_valid := valid }

/-- `Sequence_share::init` on a new share: the cache is invalid, and `caches` and
    `cache_end` are what the new object holds. -/
def Sequence_share.init (s : Sequence_share) : Sequence_share := s.set_valid false

/-- `Sequence_share::quick_read`: the state, `local_values` (written on a hit only), and
    the share after. The batch ending at `maxvalue` is the last round, whose last value
    may be `cache_end` itself. -/
def Sequence_share.quick_read (s : Sequence_share) (local_values : st_seq_cache) :
    enum_cache_state × st_seq_cache × Sequence_share :=
  if !s.cache_valid then (CACHE_INVALID, local_values, s)
  else
    let last_round := s.caches.maxvalue == s.cache_end
    if !last_round && s.caches.nextval ≥ s.cache_end then (CACHE_ROUND_OUT, local_values, s)
    else if last_round && s.caches.nextval > s.cache_end then
      (CACHE_ROUND_OUT, local_values, s)
    else
      -- `*currval_ptr= *nextval_ptr` comes before the copy into `local_values`.
      let caches := { s.caches with currval := s.caches.nextval }
      if s.cache_end - caches.nextval ≥ caches.increment then
        (CACHE_HIT, caches,
          { s with caches := { caches with nextval := caches.nextval + caches.increment } })
      else
        (CACHE_HIT, caches,
          { s with caches := { caches with nextval := s.cache_end }, cache_valid := false })

/-- Step 2 of `reload_cache`: where the next batch begins, `none` when the row says a
    non-cycling sequence has run out. A `nextval` of `0` stands for `start` in round `0`
    and for `minvalue` in later rounds. -/
def reload_cache_begin (durable : st_seq_cache) : Option UInt64 :=
  if durable.nextval = 0 then
    some (if durable.round = 0 then durable.start else durable.minvalue)
  else if durable.nextval = durable.maxvalue then none
  else some durable.nextval

/-- Step 3 of `reload_cache`: `cache_end` and the row to write back for a batch beginning
    at `begin`. When at most `cache + 1` increments are left before `maxvalue` (or none,
    `left < 0`) the batch runs to `maxvalue`, and the row records the next round or that
    the sequence ran out. -/
def reload_cache_batch (durable : st_seq_cache) (begin : UInt64) : UInt64 × st_seq_cache :=
  let left := (durable.maxvalue - begin) / durable.increment - 1
  if longlong_of left < 0 ∨ left ≤ durable.cache then
    (durable.maxvalue,
      if durable.cycle > 0 then { durable with nextval := 0, round := durable.round + 1 }
      else { durable with nextval := durable.maxvalue })
  else
    let cache_end := begin + (durable.cache + 1) * durable.increment
    (cache_end, { durable with nextval := cache_end })

/-- `Sequence_share::reload_cache` on the row `durable` that `ha_rnd_next` read: the error,
    `*changed`, the share, and `table->record[0]` as the column stores leave it. The
    `state` argument is only asserted on. -/
def Sequence_share.reload_cache (s : Sequence_share) (durable : st_seq_cache) :
    Nat × Bool × Sequence_share × st_seq_cache :=
  if check_sequence_values_valid durable then (HA_ERR_SEQUENCE_INVALID, false, s, durable)
  else
    -- Step 1 overwrites the cache before any of the later returns.
    let s := { s with caches := durable }
    match reload_cache_begin durable with
    | none => (HA_ERR_SEQUENCE_RUN_OUT, false, s, durable)
    | some begin =>
      if begin > durable.maxvalue then (HA_ERR_SEQUENCE_INVALID, false, s, durable)
      else
        let (cache_end, durable') := reload_cache_batch durable begin
        -- Step 4: `compare_records` of the stored record against the one read.
        let record := durable'.map seq_field_store
        (0, decide (record ≠ durable),
          { s with caches := { durable with nextval := begin }, cache_end := cache_end }, record)

/-! ## 3. The handler -/

/-- The error codes the engine and the binlog return during one read, `0` for success;
    `lock_sequence_table` (with `check_lock_sequence_table`) and
    `fill_sequence_fields` return `true` on failure. -/
structure Env where
  lock_sequence_table : Bool
  begin_autonomous : Nat
  ha_rnd_next : Nat
  ha_atm_update_row : Nat
  commit_autonomous : Nat
  fill_sequence_fields : Bool
deriving DecidableEq, Repr

/-- Every call succeeds. -/
def Env.ok : Env := ⟨false, 0, 0, 0, 0, false⟩

/-- The committed row of the base table and the share. -/
structure Sequence_state where
  durable : st_seq_cache
  share : Sequence_share
deriving DecidableEq, Repr

/-- `ha_sequence::update_and_reload`: the error, the share, and the committed row after
    the autonomous transaction. -/
def ha_sequence.update_and_reload (env : Env) (s : Sequence_share) (durable : st_seq_cache) :
    Nat × Sequence_share × st_seq_cache :=
  if env.begin_autonomous ≠ 0 then (env.begin_autonomous, s, durable)
  else if env.ha_rnd_next ≠ 0 then (env.ha_rnd_next, s, durable)
  else
    let (error, changed, s, record) := s.reload_cache durable
    if error ≠ 0 then (error, s, durable)
    else if changed then
      if env.ha_atm_update_row ≠ 0 then (env.ha_atm_update_row, s, durable)
      -- `commit_autonomous` rolls back what it fails to commit.
      else if env.commit_autonomous ≠ 0 then (env.commit_autonomous, s, durable)
      else (0, s, record)
    else (0, s, durable)

/-- The `end:` label of `rnd_next`: the values go into the row's fields through their
    stores. -/
def ha_sequence.fill (env : Env) (local_values : st_seq_cache) : Except Nat st_seq_cache :=
  if env.fill_sequence_fields then .error HA_ERR_SEQUENCE_ACCESS_ERROR
  else .ok (local_values.map seq_field_store)

/-- `ha_sequence::rnd_next` on the first row of a `NEXTVAL` scan: the row it fills or its
    error, and the state after. Its `local_values` is uninitialised until a hit writes
    it; the model starts it from the cache. -/
def ha_sequence.rnd_next (env : Env) (σ : Sequence_state) :
    Except Nat st_seq_cache × Sequence_state :=
  if env.lock_sequence_table then (.error HA_ERR_SEQUENCE_ACCESS_ERROR, σ)
  else
    let (state, local_values, s) := σ.share.quick_read σ.share.caches
    match state with
    | CACHE_HIT => (ha_sequence.fill env local_values, ⟨σ.durable, s⟩)
    | CACHE_ERROR => (.error HA_ERR_SEQUENCE_ACCESS_ERROR, ⟨σ.durable, s.set_valid false⟩)
    | CACHE_INVALID | CACHE_ROUND_OUT =>
      let (error, s, durable) := ha_sequence.update_and_reload env s σ.durable
      if error ≠ 0 then (.error error, ⟨durable, s.set_valid false⟩)
      else
        -- Step 3: read the cache again, now marked valid.
        let (state, local_values, s) := (s.set_valid true).quick_read local_values
        match state with
        | CACHE_HIT => (ha_sequence.fill env local_values, ⟨durable, s⟩)
        | CACHE_ROUND_OUT => (.error HA_ERR_SEQUENCE_RUN_OUT, ⟨durable, s.set_valid false⟩)
        | _ => (.error HA_ERR_SEQUENCE_ACCESS_ERROR, ⟨durable, s.set_valid false⟩)

/-- What happens to a sequence between two steps under `seq_mutex`. -/
inductive Sequence_event where
  /-- A `NEXTVAL` read, with what the engine answers. -/
  | nextval (env : Env)
  /-- `write_row`, `update_row` or `delete_row` of another statement: `set_valid(false)`,
      and the row's values left as they were. -/
  | invalidate
  /-- A restart: the share is discarded and `get_share` makes a new one. -/
  | restart (fresh : Sequence_share)

/-- One event: a read answers with its row or error; the others answer nothing. -/
def Sequence_event.step : Sequence_event → Sequence_state →
    Option (Except Nat st_seq_cache) × Sequence_state
  | .nextval env, σ =>
    let r := ha_sequence.rnd_next env σ
    (some r.1, r.2)
  | .invalidate, σ => (none, ⟨σ.durable, σ.share.set_valid false⟩)
  | .restart fresh, σ => (none, ⟨σ.durable, fresh.init⟩)

/-! ## 4. What each call does

One lemma per path of each function, on the numbers the `UInt64`s hold, so that the
proofs about runs (`Sequence/Counter.lean`) never unfold the model. -/

theorem toNat_add_of_lt {a b : UInt64} (h : a.toNat + b.toNat < 2 ^ 64) :
    (a + b).toNat = a.toNat + b.toNat := by
  rw [UInt64.toNat_add, Nat.mod_eq_of_lt h]

theorem longlong_of_neg_iff (x : UInt64) : longlong_of x < 0 ↔ 2 ^ 63 ≤ x.toNat := by
  have hx := x.toNat_lt
  unfold longlong_of signed
  split <;> omega

theorem seq_field_store_of_lt {v : UInt64} (h : v.toNat < 2 ^ 63) : seq_field_store v = v := by
  have : ¬ longlong_of v < 0 := by rw [longlong_of_neg_iff]; omega
  simp [seq_field_store, Field_longlong_store, this]

/-- A value with the sign bit set is clamped to `LONGLONG_MAX`. -/
theorem seq_field_store_of_ge {v : UInt64} (h : 2 ^ 63 ≤ v.toNat) :
    seq_field_store v = LONGLONG_MAX := by
  have hneg : longlong_of v < 0 := (longlong_of_neg_iff v).mpr h
  simp [seq_field_store, Field_longlong_store, hneg]

/-- What the store leaves is a non-negative `longlong`. -/
theorem seq_field_store_lt (v : UInt64) : (seq_field_store v).toNat < 2 ^ 63 := by
  by_cases h : 2 ^ 63 ≤ v.toNat
  · rw [seq_field_store_of_ge h]
    decide
  · rw [seq_field_store_of_lt (by omega)]
    omega

theorem seq_field_store_ne_zero {v : UInt64} (h : v ≠ 0) : seq_field_store v ≠ 0 := by
  by_cases hv : 2 ^ 63 ≤ v.toNat
  · rw [seq_field_store_of_ge hv]
    decide
  · rw [seq_field_store_of_lt (by omega)]
    exact h

/-- Every column holds a non-negative `longlong`. -/
def st_seq_cache.Fits (r : st_seq_cache) : Prop :=
  ∀ v ∈ [r.currval, r.nextval, r.minvalue, r.maxvalue, r.start, r.increment, r.cache, r.cycle,
    r.round], v.toNat < 2 ^ 63

instance (r : st_seq_cache) : Decidable r.Fits := inferInstanceAs (Decidable (∀ v ∈ _, _))

namespace Sequence_share

variable {s : Sequence_share} {lv : st_seq_cache}

theorem quick_read_of_invalid (h : s.cache_valid = false) (lv : st_seq_cache) :
    s.quick_read lv = (CACHE_INVALID, lv, s) := by
  simp [quick_read, h]

theorem quick_read_of_round_out (hv : s.cache_valid = true) (hmax : s.caches.maxvalue ≠ s.cache_end)
    (hge : s.cache_end.toNat ≤ s.caches.nextval.toNat) (lv : st_seq_cache) :
    s.quick_read lv = (CACHE_ROUND_OUT, lv, s) := by
  have hge' : s.cache_end ≤ s.caches.nextval := UInt64.le_iff_toNat_le.mpr hge
  simp [quick_read, hv, hmax, hge']

/-- Where `quick_read` hits: neither of its round-out tests fires. -/
theorem not_round_out
    (hhit : s.caches.nextval.toNat < s.cache_end.toNat ∨ s.caches.maxvalue = s.cache_end)
    (hle : s.caches.nextval.toNat ≤ s.cache_end.toNat) :
    ¬ (!(s.caches.maxvalue == s.cache_end) && decide (s.cache_end ≤ s.caches.nextval)) = true ∧
      ¬ ((s.caches.maxvalue == s.cache_end) && decide (s.cache_end < s.caches.nextval)) = true := by
  constructor
  · rcases hhit with h | h
    · simp [UInt64.le_iff_toNat_le]; omega
    · simp [h]
  · simp [UInt64.lt_iff_toNat_lt]; omega

theorem quick_read_of_step (hv : s.cache_valid = true)
    (hhit : s.caches.nextval.toNat < s.cache_end.toNat ∨ s.caches.maxvalue = s.cache_end)
    (hinc : s.caches.nextval.toNat + s.caches.increment.toNat ≤ s.cache_end.toNat)
    (lv : st_seq_cache) :
    s.quick_read lv = (CACHE_HIT, { s.caches with currval := s.caches.nextval },
      { s with caches := { s.caches with currval := s.caches.nextval,
                                         nextval := s.caches.nextval + s.caches.increment } }) := by
  obtain ⟨hround, hlast⟩ := not_round_out hhit (by omega)
  have hstep : s.caches.increment ≤ s.cache_end - s.caches.nextval := by
    rw [UInt64.le_iff_toNat_le, UInt64.toNat_sub_of_le _ _ (UInt64.le_iff_toNat_le.mpr (by omega))]
    omega
  simp only [quick_read, hv, Bool.not_true, Bool.false_eq_true, ↓reduceIte, hround, hlast, ge_iff_le, hstep]

theorem quick_read_of_last (hv : s.cache_valid = true)
    (hhit : s.caches.nextval.toNat < s.cache_end.toNat ∨ s.caches.maxvalue = s.cache_end)
    (hle : s.caches.nextval.toNat ≤ s.cache_end.toNat)
    (hinc : s.cache_end.toNat < s.caches.nextval.toNat + s.caches.increment.toNat)
    (lv : st_seq_cache) :
    s.quick_read lv = (CACHE_HIT, { s.caches with currval := s.caches.nextval },
      { s with caches := { s.caches with currval := s.caches.nextval, nextval := s.cache_end },
               cache_valid := false }) := by
  obtain ⟨hround, hlast⟩ := not_round_out hhit (by omega)
  have hstep : ¬ s.caches.increment ≤ s.cache_end - s.caches.nextval := by
    rw [UInt64.le_iff_toNat_le, UInt64.toNat_sub_of_le _ _ (UInt64.le_iff_toNat_le.mpr hle)]
    omega
  simp only [quick_read, hv, Bool.not_true, Bool.false_eq_true, ↓reduceIte, hround, hlast, ge_iff_le, hstep]

end Sequence_share
theorem check_sequence_values_valid_eq_false {items : st_seq_cache} :
    check_sequence_values_valid items = false ↔
      items.minvalue.toNat ≤ items.maxvalue.toNat ∧ items.minvalue.toNat ≤ items.start.toNat ∧
        1 ≤ items.increment.toNat ∧ items.start.toNat < items.maxvalue.toNat := by
  simp [check_sequence_values_valid, UInt64.le_iff_toNat_le, UInt64.lt_iff_toNat_lt, and_assoc]

/-- The source's test `left < 0 || left <= cache` for `left = q - 1` on every quotient:
    at most `cache + 1` increments are left, or `q - 1` has the sign bit set as a
    `longlong`. -/
theorem left_neg_or_le_iff_wrap (q c : UInt64) :
    (longlong_of (q - 1) < 0 ∨ q - 1 ≤ c) ↔ q.toNat ≤ c.toNat + 1 ∨ 2 ^ 63 < q.toNat := by
  rcases Nat.eq_zero_or_pos q.toNat with h | h
  · -- `0 - 1` wraps to `ULONGLONG_MAX`, whose `longlong` is `-1`.
    have hq0 : q = 0 := UInt64.ext_iff.mpr h
    subst hq0
    have hneg : longlong_of (0 - 1) < 0 := by rw [longlong_of_neg_iff]; decide
    exact iff_of_true (Or.inl hneg) (Or.inl (by simp))
  · have hsub : (q - 1).toNat = q.toNat - 1 :=
      UInt64.toNat_sub_of_le _ _ (UInt64.le_iff_toNat_le.mpr (by simp; omega))
    rw [longlong_of_neg_iff, UInt64.le_iff_toNat_le, hsub]
    omega

/-- Below `2 ^ 63` the test is the exact one: at most `cache + 1` increments are left. -/
theorem left_neg_or_le_iff {q c : UInt64} (hq : q.toNat < 2 ^ 63) :
    (longlong_of (q - 1) < 0 ∨ q - 1 ≤ c) ↔ q.toNat ≤ c.toNat + 1 := by
  rw [left_neg_or_le_iff_wrap]
  omega

/-- **A quotient past `2 ^ 63` ends the sequence's round early.** The row
    `(currval, nextval, minvalue, maxvalue, start, increment, cache, cycle, round) =
    (0, 0, 1, 2^64 - 1, 1, 1, 20, 0, 0)` is valid and its batch begins at `start = 1`,
    with `2^64 - 2` increments left before `maxvalue`, far more than `cache + 1`. `left`
    is `2^64 - 3`, negative as a `longlong`, so `reload_cache` makes the batch the last
    round, `cache_end = maxvalue`, instead of ending it at `1 + 21 = 22`. -/
theorem reload_cache_sign_flip (s : Sequence_share) :
    check_sequence_values_valid ⟨0, 0, 1, 18446744073709551615, 1, 1, 20, 0, 0⟩ = false ∧
      reload_cache_begin ⟨0, 0, 1, 18446744073709551615, 1, 1, 20, 0, 0⟩ = some 1 ∧
      20 + 1 < (18446744073709551615 - 1) / 1 ∧
      (s.reload_cache ⟨0, 0, 1, 18446744073709551615, 1, 1, 20, 0, 0⟩).1 = 0 ∧
      (s.reload_cache ⟨0, 0, 1, 18446744073709551615, 1, 1, 20, 0, 0⟩).2.2.1.cache_end =
        18446744073709551615 := by
  refine ⟨by decide, by decide, by decide, rfl, rfl⟩

section reload

variable {D : st_seq_cache} {b : UInt64}

/-- `(maxvalue - begin) / increment` on numbers. -/
theorem toNat_left (hb : b.toNat ≤ D.maxvalue.toNat) :
    ((D.maxvalue - b) / D.increment).toNat = (D.maxvalue.toNat - b.toNat) / D.increment.toNat := by
  rw [UInt64.toNat_div, UInt64.toNat_sub_of_le _ _ (UInt64.le_iff_toNat_le.mpr hb)]

theorem reload_cache_batch_of_last (hb : b.toNat ≤ D.maxvalue.toNat)
    (hmax : D.maxvalue.toNat < 2 ^ 63)
    (h : (D.maxvalue.toNat - b.toNat) / D.increment.toNat ≤ D.cache.toNat + 1) :
    reload_cache_batch D b = (D.maxvalue,
      if D.cycle > 0 then { D with nextval := 0, round := D.round + 1 }
      else { D with nextval := D.maxvalue }) := by
  have hq : ((D.maxvalue - b) / D.increment).toNat < 2 ^ 63 := by
    rw [toNat_left hb]
    exact lt_of_le_of_lt (Nat.div_le_self _ _) (by omega)
  have hlast := (left_neg_or_le_iff (c := D.cache) hq).mpr (by rw [toNat_left hb]; exact h)
  simp only [reload_cache_batch, hlast, ↓reduceIte]

theorem reload_cache_batch_of_mid (hb : b.toNat ≤ D.maxvalue.toNat)
    (hmax : D.maxvalue.toNat < 2 ^ 63)
    (h : D.cache.toNat + 1 < (D.maxvalue.toNat - b.toNat) / D.increment.toNat) :
    reload_cache_batch D b = (b + (D.cache + 1) * D.increment,
      { D with nextval := b + (D.cache + 1) * D.increment }) := by
  have hq : ((D.maxvalue - b) / D.increment).toNat < 2 ^ 63 := by
    rw [toNat_left hb]
    exact lt_of_le_of_lt (Nat.div_le_self _ _) (by omega)
  have hmid : ¬ (longlong_of ((D.maxvalue - b) / D.increment - 1) < 0 ∨
      (D.maxvalue - b) / D.increment - 1 ≤ D.cache) := by
    rw [left_neg_or_le_iff hq, toNat_left hb]
    omega
  simp only [reload_cache_batch, hmid, ↓reduceIte]

/-- The end of a batch that is not the last: `cache + 1` increments past `begin`, below
    `maxvalue`. -/
theorem toNat_batch_end (hb : b.toNat ≤ D.maxvalue.toNat) (hmax : D.maxvalue.toNat < 2 ^ 63)
    (h : D.cache.toNat + 1 < (D.maxvalue.toNat - b.toNat) / D.increment.toNat) :
    (b + (D.cache + 1) * D.increment).toNat = b.toNat + (D.cache.toNat + 1) * D.increment.toNat ∧
      b.toNat + (D.cache.toNat + 1) * D.increment.toNat < D.maxvalue.toNat := by
  -- `(cache + 2) * increment ≤ maxvalue - begin`, so nothing wraps.
  have hinc : 0 < D.increment.toNat := Nat.pos_of_ne_zero (by rintro h0; simp [h0] at h)
  have hmul : (D.cache.toNat + 1 + 1) * D.increment.toNat ≤ D.maxvalue.toNat - b.toNat :=
    (Nat.le_div_iff_mul_le hinc).mp (by omega)
  rw [Nat.succ_mul] at hmul
  have hq : (D.maxvalue.toNat - b.toNat) / D.increment.toNat ≤ D.maxvalue.toNat - b.toNat :=
    Nat.div_le_self _ _
  have hlt : b.toNat + (D.cache.toNat + 1) * D.increment.toNat < D.maxvalue.toNat := by omega
  have hc : (D.cache + 1).toNat = D.cache.toNat + 1 := by
    rw [UInt64.toNat_add, UInt64.toNat_one, Nat.mod_eq_of_lt (by omega)]
  have hprod : ((D.cache + 1) * D.increment).toNat = (D.cache.toNat + 1) * D.increment.toNat := by
    rw [UInt64.toNat_mul, hc, Nat.mod_eq_of_lt (by omega)]
  refine ⟨?_, hlt⟩
  rw [UInt64.toNat_add, hprod, Nat.mod_eq_of_lt (by omega)]

end reload

/-- A reload resumes at a `nextval` that is neither `0` nor `maxvalue`. -/
theorem reload_cache_begin_of_ne {D : st_seq_cache} (h0 : D.nextval ≠ 0)
    (hmax : D.nextval ≠ D.maxvalue) : reload_cache_begin D = some D.nextval := by
  simp [reload_cache_begin, h0, hmax]

theorem Sequence_share.reload_cache_of_begin_none {s : Sequence_share} {D : st_seq_cache}
    (hD : check_sequence_values_valid D = false) (hb : reload_cache_begin D = none) :
    s.reload_cache D = (HA_ERR_SEQUENCE_RUN_OUT, false, { s with caches := D }, D) := by
  simp [reload_cache, hD, hb]

theorem Sequence_share.reload_cache_of_begin {s : Sequence_share} {D D' : st_seq_cache}
    {b E : UInt64} (hD : check_sequence_values_valid D = false)
    (hb : reload_cache_begin D = some b) (hle : b.toNat ≤ D.maxvalue.toNat)
    (hbatch : reload_cache_batch D b = (E, D')) :
    s.reload_cache D = (0, decide (D'.map seq_field_store ≠ D),
      { s with caches := { D with nextval := b }, cache_end := E }, D'.map seq_field_store) := by
  have hgt : ¬ b > D.maxvalue := by rw [gt_iff_lt, UInt64.lt_iff_toNat_lt]; omega
  simp only [reload_cache, hD, hb, hgt, hbatch, Bool.false_eq_true, ↓reduceIte]

/-- The row written back is the one read whenever `*changed` is false. -/
theorem Sequence_share.reload_cache_unchanged {s s' : Sequence_share} {D rec : st_seq_cache}
    {e : Nat} (h : s.reload_cache D = (e, false, s', rec)) : rec = D := by
  unfold reload_cache at h
  split at h
  · cases h; rfl
  · split at h
    · cases h; rfl
    · split at h
      · cases h; rfl
      · simp only [Prod.mk.injEq, decide_eq_false_iff_not, not_not] at h
        exact h.2.2.2.symm ▸ h.2.1

namespace ha_sequence

variable {env : Env} {s : Sequence_share} {D : st_seq_cache}

/-- A failed autonomous transaction leaves the committed row as it was. -/
theorem update_and_reload_of_error (h : (update_and_reload env s D).1 ≠ 0) :
    (update_and_reload env s D).2.2 = D := by
  rcases hr : s.reload_cache D with ⟨e, c, s', rec⟩
  unfold update_and_reload at h ⊢
  rw [hr] at h ⊢
  dsimp only at h ⊢
  -- every branch keeps the row but the commit, which returns 0
  split_ifs at h ⊢
  all_goals first | rfl | exact absurd rfl h

/-- A successful one is a successful `reload_cache`, its record committed. -/
theorem update_and_reload_of_ok (h : (update_and_reload env s D).1 = 0) :
    ∃ c, s.reload_cache D =
      (0, c, (update_and_reload env s D).2.1, (update_and_reload env s D).2.2) := by
  rcases hr : s.reload_cache D with ⟨e, c, s', rec⟩
  unfold update_and_reload at h ⊢
  rw [hr] at h ⊢
  dsimp only at h ⊢
  split_ifs at h ⊢ with hb hn he hc ha hm
  -- a failing call returns its own, non-zero, code
  · exact absurd h hb
  · exact absurd h hn
  · exact absurd h he
  · exact absurd h ha
  · exact absurd h hm
  · -- committed: the record `reload_cache` made
    exact ⟨c, by rw [not_not.mp he]⟩
  · -- nothing to write: `reload_cache` kept the row
    obtain rfl : c = false := by simpa using hc
    exact ⟨false, by rw [not_not.mp he, Sequence_share.reload_cache_unchanged hr]⟩

/-- With every engine call succeeding, the transaction fails exactly as `reload_cache`. -/
theorem update_and_reload_ok {e : Nat} {c : Bool} {s' : Sequence_share} {rec : st_seq_cache}
    (h : s.reload_cache D = (e, c, s', rec)) : (update_and_reload Env.ok s D).1 = e := by
  unfold update_and_reload
  rw [h]
  by_cases he : e = 0 <;> by_cases hc : c = true <;> simp [Env.ok, he, hc]

/-- The row `fill` puts into the fields carries the value handed out, when it fits. -/
theorem fill_currval (env : Env) {lv : st_seq_cache} (h : lv.currval.toNat < 2 ^ 63) :
    (fill env lv).map (·.currval.toNat) =
      if env.fill_sequence_fields then .error HA_ERR_SEQUENCE_ACCESS_ERROR
      else .ok lv.currval.toNat := by
  unfold fill
  split
  · rfl
  · simp only [Except.map, st_seq_cache.map, seq_field_store_of_lt h]

end ha_sequence

namespace ha_sequence

variable {env : Env} {σ : Sequence_state} {s s₁ s₂ : Sequence_share} {lv lv₂ D₁ : st_seq_cache}

theorem rnd_next_of_lock (h : env.lock_sequence_table = true) (σ : Sequence_state) :
    rnd_next env σ = (.error HA_ERR_SEQUENCE_ACCESS_ERROR, σ) := by
  simp [rnd_next, h]

theorem rnd_next_of_hit (hl : env.lock_sequence_table = false)
    (hq : σ.share.quick_read σ.share.caches = (CACHE_HIT, lv, s)) :
    rnd_next env σ = (fill env lv, ⟨σ.durable, s⟩) := by
  simp [rnd_next, hl, hq]

theorem rnd_next_of_reload_error {st : enum_cache_state} {e : Nat}
    (hl : env.lock_sequence_table = false)
    (hq : σ.share.quick_read σ.share.caches = (st, lv, s))
    (hst : st = CACHE_INVALID ∨ st = CACHE_ROUND_OUT)
    (hu : update_and_reload env s σ.durable = (e, s₁, D₁)) (he : e ≠ 0) :
    rnd_next env σ = (.error e, ⟨D₁, s₁.set_valid false⟩) := by
  rcases hst with rfl | rfl <;> simp [rnd_next, hl, hq, hu, he]

theorem rnd_next_of_reload_hit {st : enum_cache_state}
    (hl : env.lock_sequence_table = false)
    (hq : σ.share.quick_read σ.share.caches = (st, lv, s))
    (hst : st = CACHE_INVALID ∨ st = CACHE_ROUND_OUT)
    (hu : update_and_reload env s σ.durable = (0, s₁, D₁))
    (hq₂ : (s₁.set_valid true).quick_read lv = (CACHE_HIT, lv₂, s₂)) :
    rnd_next env σ = (fill env lv₂, ⟨D₁, s₂⟩) := by
  rcases hst with rfl | rfl <;> simp [rnd_next, hl, hq, hu, hq₂]

end ha_sequence

end AliSql
