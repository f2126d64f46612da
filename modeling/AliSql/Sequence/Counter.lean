import Mathlib
import AliSql.Sequence.Cache

/-!
# The sequence engine is a counter

What `NEXTVAL` is for, stated on its own (`Counter`): the progression of `increment`
from `start` up to `maxvalue`, then, for a cycling sequence, the same progression from
`minvalue` round after round; `answer` is its `k`-th value in closed form.

The engine of `Sequence/Cache.lean` keeps that counter in two places: the value a
valid cache would hand out next, or else the value a reload of the committed row would
begin at (`Sequence_state.next_value`). `Sequence_state.Inv` is the invariant of every
state of a run from a row: the committed row is the first one with the `nextval` and
`round` the reloads wrote, and a valid cache holds a batch of values the counter
reaches, with the committed row already past its end (`Mid_batch`) or recording the
end of the round (`Last_batch`).

* `rnd_next_cases` says once what a read does from such a state: it hands out
  `next_value` and the counter moves on, or it fails and `next_value` stays;
* `rnd_next_refines_counter`: with every engine call succeeding, the values handed out
  by any number of reads from a fresh share are exactly the counter's;
* `nocycle_nextval_unique`: for a non-cycling sequence, along any run of reads,
  invalidations, failed calls and restarts the values handed out strictly increase,
  stay in the first round's progression, and stay below the committed `nextval`.

Both need the row's columns to be non-negative `longlong`s (`st_seq_cache.Fits`):
`reload_cache` writes the row back through the signed columns' stores, which clamp a
value of `2^63` or more to `LONGLONG_MAX`.
-/

set_option autoImplicit false

namespace AliSql

open enum_cache_state Machine

/-! ## 1. What `NEXTVAL` is for -/

/-- A sequence as a plain counter over the numbers. -/
structure Counter where
  minvalue : Nat
  maxvalue : Nat
  increment : Nat
  cycle : Bool

namespace Counter

variable (c : Counter)

/-- The value after `v`: the next of the progression, the first of the next round, or
    none. -/
def next (v : Nat) : Option Nat :=
  if v + c.increment ≤ c.maxvalue then some (v + c.increment)
  else if c.cycle then some c.minvalue else none

/-- One `NEXTVAL`: the value, or `HA_ERR_SEQUENCE_RUN_OUT` once the counter ran out. -/
def step (_ : Unit) : Option Nat → Except Nat Nat × Option Nat
  | none => (.error HA_ERR_SEQUENCE_RUN_OUT, none)
  | some v => (.ok v, c.next v)

/-- How many values follow `v` in its round. -/
def steps_from (v : Nat) : Nat := (c.maxvalue - v) / c.increment

/-- The `k`-th answer from the state `a`: `v, v + increment, …` up to `maxvalue`; then
    for a cycling counter the rounds from `minvalue`, of `steps_from minvalue + 1` values
    each; for a non-cycling one `HA_ERR_SEQUENCE_RUN_OUT`. -/
def answer : Option Nat → Nat → Except Nat Nat
  | none, _ => .error HA_ERR_SEQUENCE_RUN_OUT
  | some v, k =>
    if k ≤ c.steps_from v then .ok (v + k * c.increment)
    else if c.cycle then
      .ok (c.minvalue + (k - (c.steps_from v + 1)) % (c.steps_from c.minvalue + 1) * c.increment)
    else .error HA_ERR_SEQUENCE_RUN_OUT

/-- The values the counter reaches from `start`: those of the first round, and for a
    cycling counter those of the rounds from `minvalue`. -/
def Reach (start v : Nat) : Prop :=
  v ≤ c.maxvalue ∧
    ((start ≤ v ∧ c.increment ∣ v - start) ∨
      (c.cycle = true ∧ c.minvalue ≤ v ∧ c.increment ∣ v - c.minvalue))

/-- A counter whose steps move and whose rounds are not empty. -/
structure WF : Prop where
  increment_pos : 0 < c.increment
  minvalue_le : c.minvalue ≤ c.maxvalue

variable {c}

theorem next_le (hc : c.WF) {v w : Nat} (h : c.next v = some w) : w ≤ c.maxvalue := by
  unfold next at h
  split_ifs at h <;> cases h
  · assumption
  · exact hc.minvalue_le

theorem lt_next (hc : c.WF) {v w : Nat} (hcy : c.cycle = false) (h : c.next v = some w) :
    v < w := by
  unfold next at h
  split_ifs at h with h₁ h₂
  · cases h
    exact Nat.lt_add_of_pos_right hc.increment_pos
  · rw [hcy] at h₂
    cases h₂

/-- Whole increments past a reached value, up to `maxvalue`, are reached. -/
theorem Reach.add_mul {start v : Nat} (hv : c.Reach start v) (k : Nat)
    (hk : v + k * c.increment ≤ c.maxvalue) : c.Reach start (v + k * c.increment) := by
  refine ⟨hk, ?_⟩
  rcases hv.2 with ⟨hs, hd⟩ | ⟨hcy, hm, hd⟩
  · left
    refine ⟨by omega, ?_⟩
    rw [show v + k * c.increment - start = v - start + k * c.increment by omega]
    exact Nat.dvd_add hd (Dvd.intro_left k rfl)
  · right
    refine ⟨hcy, by omega, ?_⟩
    rw [show v + k * c.increment - c.minvalue = v - c.minvalue + k * c.increment by omega]
    exact Nat.dvd_add hd (Dvd.intro_left k rfl)

/-- The first value of a cycling counter's later rounds is reached. -/
theorem reach_minvalue (hc : c.WF) (hcy : c.cycle = true) (start : Nat) :
    c.Reach start c.minvalue :=
  ⟨hc.minvalue_le, .inr ⟨hcy, le_refl _, by simp⟩⟩

theorem Reach.next (hc : c.WF) {start v w : Nat} (hv : c.Reach start v)
    (h : c.next v = some w) : c.Reach start w := by
  unfold Counter.next at h
  split_ifs at h with h₁ h₂ <;> cases h
  · simpa using hv.add_mul 1 (by simpa using h₁)
  · exact reach_minvalue hc h₂ start

/-- The closed form at `0` is the first answer. -/
theorem answer_zero (a : Option Nat) : c.answer a 0 = (c.step () a).1 := by
  cases a with
  | none => rfl
  | some v => simp [answer, step]

/-- The closed form one answer later is the closed form from the next state. -/
theorem answer_succ (hc : c.WF) {v : Nat} (hv : v ≤ c.maxvalue) (k : Nat) :
    c.answer (some v) (k + 1) = c.answer (c.next v) k := by
  have hinc := hc.increment_pos
  by_cases hstep : v + c.increment ≤ c.maxvalue
  · -- Inside the round: the round from `v + increment` is one value shorter.
    have hsteps : c.steps_from (v + c.increment) + 1 = c.steps_from v := by
      have h := Nat.sub_mul_div (c.maxvalue - v) c.increment 1
      have hpos : 1 ≤ (c.maxvalue - v) / c.increment := (Nat.one_le_div_iff hinc).mpr (by omega)
      unfold steps_from
      rw [show c.maxvalue - (v + c.increment) = c.maxvalue - v - c.increment * 1 by omega, h]
      omega
    simp only [answer, next, hstep, ↓reduceIte]
    by_cases hk : k + 1 ≤ c.steps_from v
    · rw [if_pos hk, if_pos (show k ≤ c.steps_from (v + c.increment) by omega), Nat.succ_mul]
      congr 1
      omega
    · rw [if_neg hk, if_neg (show ¬ k ≤ c.steps_from (v + c.increment) by omega), ← hsteps]
      simp
  · -- The last value of the round: what follows is the next round, or nothing.
    have hzero : c.steps_from v = 0 := Nat.div_eq_of_lt (by omega)
    simp only [answer, next, hstep, ↓reduceIte, hzero]
    rw [if_neg (by omega)]
    cases hcy : c.cycle with
    | false => simp
    | true =>
      simp only [↓reduceIte, Nat.add_sub_cancel]
      by_cases hk : k ≤ c.steps_from c.minvalue
      · rw [if_pos hk, Nat.mod_eq_of_lt (by omega)]
      · rw [if_neg hk, Nat.mod_eq_sub_mod (by omega)]

/-- **The counter's answers in closed form.** From a state below `maxvalue`, the first
    `n` answers are `answer` at `0, …, n - 1`. -/
theorem trace_answers (hc : c.WF) :
    ∀ (n : Nat) {a : Option Nat}, (∀ v, a = some v → v ≤ c.maxvalue) →
      (trace c.step a (List.replicate n ())).map Prod.fst = (List.range n).map (c.answer a)
  | 0, _, _ => rfl
  | n + 1, a, ha => by
    have hnext : ∀ w, (c.step () a).2 = some w → w ≤ c.maxvalue := by
      intro w hw
      cases a with
      | none => cases hw
      | some v => exact next_le hc hw
    have hsucc : ∀ k, c.answer a (k + 1) = c.answer (c.step () a).2 k := by
      intro k
      cases a with
      | none => rfl
      | some v => exact answer_succ hc (ha v rfl) k
    rw [List.replicate_succ, trace_cons, List.map_cons, trace_answers hc n hnext,
      List.range_succ_eq_map, List.map_cons, List.map_map, answer_zero]
    congr 1
    exact List.map_congr_left fun k _ => (hsucc k).symm

end Counter

/-! ## 2. The counter a row describes -/

/-- The row's progression, as `reload_cache` and `quick_read` step through it. -/
def st_seq_cache.counter (R : st_seq_cache) : Counter :=
  ⟨R.minvalue.toNat, R.maxvalue.toNat, R.increment.toNat, decide (R.cycle > 0)⟩

@[simp] theorem st_seq_cache.counter_minvalue (R : st_seq_cache) :
    R.counter.minvalue = R.minvalue.toNat := rfl
@[simp] theorem st_seq_cache.counter_maxvalue (R : st_seq_cache) :
    R.counter.maxvalue = R.maxvalue.toNat := rfl
@[simp] theorem st_seq_cache.counter_increment (R : st_seq_cache) :
    R.counter.increment = R.increment.toNat := rfl
@[simp] theorem st_seq_cache.counter_cycle (R : st_seq_cache) :
    R.counter.cycle = decide (R.cycle ≠ 0) := by
  simp [counter, UInt64.pos_iff_ne_zero]

/-- A row the engine runs from: it passes `check_sequence_values_valid`, and every column
    is a non-negative `longlong`. -/
structure Row_ok (R : st_seq_cache) : Prop where
  valid : check_sequence_values_valid R = false
  fits : R.Fits

/-- What the next `NEXTVAL` would hand out: the cached value when the cache is valid,
    the value a reload would begin at otherwise, none where a reload reports the
    sequence run out. -/
def Sequence_state.next_value (σ : Sequence_state) : Option Nat :=
  if σ.share.cache_valid then some σ.share.caches.nextval.toNat
  else (reload_cache_begin σ.durable).map UInt64.toNat

/-- The committed row of a run from `R`: `R` with the `nextval` and `round` the reloads
    wrote, `nextval = maxvalue` only for a non-cycling sequence, and a reload from it
    beginning at a value the counter reaches. -/
structure Durable_ok (R D : st_seq_cache) : Prop where
  eq : D = { R with nextval := D.nextval, round := D.round }
  nextval_le : D.nextval.toNat ≤ R.maxvalue.toNat
  round_lt : D.round.toNat < 2 ^ 63
  run_out : D.nextval = R.maxvalue → R.cycle = 0
  reach : ∀ b, reload_cache_begin D = some b → R.counter.Reach R.start.toNat b.toNat

/-- The valid batch runs to `maxvalue`, and the committed row records that the sequence
    ran out or that the next round begins. -/
def Last_batch (R D : st_seq_cache) (s : Sequence_share) : Prop :=
  s.cache_end = R.maxvalue ∧ (R.cycle = 0 → D.nextval = R.maxvalue) ∧
    (R.cycle ≠ 0 → D.nextval = 0 ∧ D.round ≠ 0)

/-- The valid batch ends below `maxvalue`, a whole number of increments after the cached
    value, where the committed row resumes. -/
def Mid_batch (R D : st_seq_cache) (s : Sequence_share) : Prop :=
  s.cache_end.toNat < R.maxvalue.toNat ∧ D.nextval = s.cache_end ∧ 0 < s.cache_end.toNat ∧
    R.increment.toNat ∣ s.cache_end.toNat - s.caches.nextval.toNat

/-- A valid cache of a run from `R` over the committed row `D`. -/
structure Share_ok (R D : st_seq_cache) (s : Sequence_share) : Prop where
  maxvalue : s.caches.maxvalue = R.maxvalue
  increment : s.caches.increment = R.increment
  nextval_le : s.caches.nextval.toNat ≤ s.cache_end.toNat
  reach : R.counter.Reach R.start.toNat s.caches.nextval.toNat
  batch : Last_batch R D s ∨ Mid_batch R D s

/-- **The invariant of a run**: the committed row as the reloads leave it, and a valid
    cache holding a batch of it. -/
structure Sequence_state.Inv (R : st_seq_cache) (σ : Sequence_state) : Prop where
  durable : Durable_ok R σ.durable
  share : σ.share.cache_valid = true → Share_ok R σ.durable σ.share

section facts

variable {R D : st_seq_cache}

theorem Row_ok.bounds (hR : Row_ok R) :
    R.minvalue.toNat ≤ R.maxvalue.toNat ∧ R.minvalue.toNat ≤ R.start.toNat ∧
      1 ≤ R.increment.toNat ∧ R.start.toNat < R.maxvalue.toNat :=
  check_sequence_values_valid_eq_false.mp hR.valid

theorem Row_ok.maxvalue_lt (hR : Row_ok R) : R.maxvalue.toNat < 2 ^ 63 :=
  hR.fits _ (by simp)

theorem Row_ok.counter_wf (hR : Row_ok R) : R.counter.WF :=
  ⟨by simp only [st_seq_cache.counter]; have := hR.bounds; omega, hR.bounds.1⟩

theorem Durable_ok.valid (hR : Row_ok R) (hD : Durable_ok R D) :
    check_sequence_values_valid D = false := by
  rw [hD.eq]
  exact hR.valid

theorem Durable_ok.maxvalue (hD : Durable_ok R D) : D.maxvalue = R.maxvalue := by
  rw [hD.eq]

theorem Durable_ok.minvalue (hD : Durable_ok R D) : D.minvalue = R.minvalue := by
  rw [hD.eq]

theorem Durable_ok.increment (hD : Durable_ok R D) : D.increment = R.increment := by
  rw [hD.eq]

theorem Durable_ok.cycle (hD : Durable_ok R D) : D.cycle = R.cycle := by
  rw [hD.eq]

/-- The write-back of a committed row with a new `nextval` and `round`: the stores keep
    every other column, all of which fit. -/
theorem Durable_ok.write_back (hR : Row_ok R) (hD : Durable_ok R D) (n r : UInt64) :
    ({ D with nextval := n, round := r }).map seq_field_store =
      { R with nextval := seq_field_store n, round := seq_field_store r } := by
  have hfits := hR.fits
  simp only [st_seq_cache.Fits, List.mem_cons, List.not_mem_nil, or_false,
    forall_eq_or_imp, forall_eq] at hfits
  obtain ⟨h₁, -, h₃, h₄, h₅, h₆, h₇, h₈, -⟩ := hfits
  rw [hD.eq]
  simp only [st_seq_cache.map, seq_field_store_of_lt h₁, seq_field_store_of_lt h₃,
    seq_field_store_of_lt h₄, seq_field_store_of_lt h₅, seq_field_store_of_lt h₆,
    seq_field_store_of_lt h₇, seq_field_store_of_lt h₈]

/-- Every value the state would hand out is one the counter reaches. -/
theorem Sequence_state.Inv.next_value_reach {σ : Sequence_state} (hσ : σ.Inv R) {v : Nat}
    (hv : σ.next_value = some v) : R.counter.Reach R.start.toNat v := by
  unfold Sequence_state.next_value at hv
  split at hv
  · cases hv
    exact (hσ.share ‹_›).reach
  · obtain ⟨b, hb, rfl⟩ := Option.map_eq_some_iff.mp hv
    exact hσ.durable.reach b hb

/-- An invalid cache over a committed row of the run is a state of the run. -/
theorem Durable_ok.inv_invalid (hD : Durable_ok R D) {s : Sequence_share}
    (hs : s.cache_valid = false) : Sequence_state.Inv R ⟨D, s⟩ :=
  ⟨hD, fun h => by simp [hs] at h⟩

end facts

/-! ## 3. One read -/

section read

variable {R D : st_seq_cache} {s : Sequence_share}

/-- **A hit.** From a valid cache of the run where `quick_read` hits, the read hands out
    the cached value; the state after it is one of the run, whose next value is the
    counter's next. The committed row stays past the value, unless it says the
    sequence ran out. -/
theorem quick_read_hit (hR : Row_ok R) (hD : Durable_ok R D) (hs : Share_ok R D s)
    (hv : s.cache_valid = true)
    (hhit : s.caches.nextval.toNat < s.cache_end.toNat ∨ s.caches.maxvalue = s.cache_end)
    (lv : st_seq_cache) :
    ∃ s', s.quick_read lv = (CACHE_HIT, { s.caches with currval := s.caches.nextval }, s') ∧
      Sequence_state.Inv R ⟨D, s'⟩ ∧
      Sequence_state.next_value ⟨D, s'⟩ = R.counter.next s.caches.nextval.toNat ∧
      (R.cycle = 0 → s.caches.nextval.toNat < D.nextval.toNat ∨ D.nextval = R.maxvalue) := by
  have hmax := hR.maxvalue_lt
  have hend : s.cache_end.toNat ≤ R.maxvalue.toNat := by
    rcases hs.batch with ⟨he, -⟩ | ⟨he, -⟩
    · rw [he]
    · exact he.le
  have hinc : s.caches.increment.toNat = R.increment.toNat := by rw [hs.increment]
  -- A hit in a batch that ends below `maxvalue` is below its end.
  have hbelow_end : s.caches.maxvalue = s.cache_end → s.cache_end = R.maxvalue := fun h =>
    h ▸ hs.maxvalue
  have hbelow : R.cycle = 0 →
      s.caches.nextval.toNat < D.nextval.toNat ∨ D.nextval = R.maxvalue := by
    intro hcy
    rcases hs.batch with ⟨-, hlast, -⟩ | ⟨he, hD', -, -⟩
    · exact .inr (hlast hcy)
    · rcases hhit with h | h
      · left
        rw [hD']
        exact h
      · rw [hbelow_end h] at he
        omega
  by_cases hstep : s.caches.nextval.toNat + s.caches.increment.toNat ≤ s.cache_end.toNat
  · -- Another value stays in the batch.
    have hadd : (s.caches.nextval + s.caches.increment).toNat =
        s.caches.nextval.toNat + s.caches.increment.toNat := toNat_add_of_lt (by omega)
    have hnext : R.counter.next s.caches.nextval.toNat =
        some (s.caches.nextval.toNat + R.increment.toNat) := by
      have h : s.caches.nextval.toNat + R.counter.increment ≤ R.counter.maxvalue := by
        simp only [st_seq_cache.counter_increment, st_seq_cache.counter_maxvalue]
        omega
      rw [Counter.next, if_pos h, st_seq_cache.counter_increment]
    refine ⟨_, s.quick_read_of_step hv hhit hstep lv,
      ⟨hD, fun _ => ⟨hs.maxvalue, hs.increment, ?_, ?_, ?_⟩⟩, ?_, hbelow⟩
    · simpa only [hadd] using hstep
    · simp only [hadd, hinc]
      exact hs.reach.next hR.counter_wf hnext
    · rcases hs.batch with hl | ⟨he, hD', hpos, hdvd⟩
      · exact .inl hl
      · refine .inr ⟨he, hD', hpos, ?_⟩
        simp only [hadd, hinc]
        rw [show s.cache_end.toNat - (s.caches.nextval.toNat + R.increment.toNat) =
          s.cache_end.toNat - s.caches.nextval.toNat - R.increment.toNat by omega]
        exact Nat.dvd_sub hdvd (dvd_refl _)
    · simp only [Sequence_state.next_value, hv, ↓reduceIte, hadd, hinc, hnext]
  · -- The batch's last value: the cache goes invalid, and the committed row says what
    -- follows.
    have hle := hs.nextval_le
    refine ⟨_, s.quick_read_of_last hv hhit hle (by omega) lv, hD.inv_invalid rfl, ?_, hbelow⟩
    rcases hs.batch with ⟨he, hlast, hround⟩ | ⟨he, -, -, hdvd⟩
    · have hover : ¬ s.caches.nextval.toNat + R.increment.toNat ≤ R.maxvalue.toNat := by
        rw [he] at hstep
        omega
      have hmax0 : D.maxvalue ≠ 0 := by
        intro h0
        have := hR.bounds
        rw [hD.maxvalue] at h0
        simp [h0] at this
      by_cases hcy : R.cycle = 0
      · -- The row records that the sequence ran out.
        have hD0 : D.nextval = D.maxvalue := by rw [hD.maxvalue]; exact hlast hcy
        simp [Sequence_state.next_value, reload_cache_begin, Counter.next, hover, hcy, hD0, hmax0]
      · -- The row records the next round, from `minvalue`.
        obtain ⟨h0, hr⟩ := hround hcy
        simp [Sequence_state.next_value, reload_cache_begin, Counter.next, hover, hcy, h0, hr,
          hD.minvalue]
    · -- Inside a batch below `maxvalue` the distance to its end is a multiple of the
      -- increment, so a last value there would be the end itself, which is no hit.
      exfalso
      have h0 := Nat.eq_zero_of_dvd_of_lt hdvd (by omega)
      rcases hhit with h | h
      · omega
      · rw [hbelow_end h] at he
        omega

/-- What a successful `reload_cache` from the committed row `D` at `b` leaves: marked
    valid, the share holds a batch from `b` of the row it wrote, itself a committed row
    of the run, and `quick_read` hits at `b`. -/
def Reloaded (R D : st_seq_cache) (b : UInt64) (s : Sequence_share) : Prop :=
  ∃ c s₁ rec, s.reload_cache D = (0, c, s₁, rec) ∧ s₁.caches.nextval = b ∧
    Durable_ok R rec ∧ Share_ok R rec (s₁.set_valid true) ∧
    (b.toNat < s₁.cache_end.toNat ∨ s₁.caches.maxvalue = s₁.cache_end)

theorem Row_ok.maxvalue_ne_zero (hR : Row_ok R) : R.maxvalue ≠ 0 := by
  intro h0
  have := hR.bounds
  simp [h0] at this

/-- The share a reload leaves is a valid cache of the run once it holds a batch. -/
theorem share_ok_of_reload (hD : Durable_ok R D) {b E : UInt64} {rec : st_seq_cache}
    (s : Sequence_share) (hreach : R.counter.Reach R.start.toNat b.toNat)
    (hle : b.toNat ≤ E.toNat)
    (hbatch : Last_batch R rec ⟨{ D with nextval := b }, E, true⟩ ∨
      Mid_batch R rec ⟨{ D with nextval := b }, E, true⟩) :
    Share_ok R rec ({ s with caches := { D with nextval := b }, cache_end := E }.set_valid true) :=
  ⟨hD.maxvalue, hD.increment, hle, hreach, hbatch⟩

section reload

variable (hR : Row_ok R) (hD : Durable_ok R D) {b : UInt64} (hb : reload_cache_begin D = some b)
include hR hD hb

/-- The last batch of a non-cycling sequence: the row written says it ran out. -/
theorem reloaded_run_out
    (hlast : (D.maxvalue.toNat - b.toNat) / D.increment.toNat ≤ D.cache.toNat + 1)
    (hcy : R.cycle = 0) (s : Sequence_share) : Reloaded R D b s := by
  have hreach := hD.reach b hb
  have hble : b.toNat ≤ D.maxvalue.toNat := by rw [hD.maxvalue]; exact hreach.1
  have hmax : D.maxvalue.toNat < 2 ^ 63 := by rw [hD.maxvalue]; exact hR.maxvalue_lt
  have hpos : ¬ D.cycle > 0 := by rw [hD.cycle, hcy]; decide
  have hbatch := reload_cache_batch_of_last hble hmax hlast
  rw [if_neg hpos] at hbatch
  have h := Sequence_share.reload_cache_of_begin (s := s) (hD.valid hR) hb hble hbatch
  rw [hD.write_back hR, seq_field_store_of_lt hmax, seq_field_store_of_lt hD.round_lt] at h
  refine ⟨_, _, _, h, rfl, ⟨rfl, by rw [hD.maxvalue], hD.round_lt, fun _ => hcy, ?_⟩,
    share_ok_of_reload hD s hreach hble
      (.inl ⟨hD.maxvalue, fun _ => hD.maxvalue, fun h => absurd hcy h⟩), .inr rfl⟩
  intro b' hb'
  simp [reload_cache_begin, hD.maxvalue, hR.maxvalue_ne_zero] at hb'

/-- The last batch of a cycling sequence: the row written says the next round begins. -/
theorem reloaded_next_round
    (hlast : (D.maxvalue.toNat - b.toNat) / D.increment.toNat ≤ D.cache.toNat + 1)
    (hcy : R.cycle ≠ 0) (s : Sequence_share) : Reloaded R D b s := by
  have hreach := hD.reach b hb
  have hble : b.toNat ≤ D.maxvalue.toNat := by rw [hD.maxvalue]; exact hreach.1
  have hmax : D.maxvalue.toNat < 2 ^ 63 := by rw [hD.maxvalue]; exact hR.maxvalue_lt
  have hpos : D.cycle > 0 := by rw [hD.cycle]; exact UInt64.pos_iff_ne_zero.mpr hcy
  have hbatch := reload_cache_batch_of_last hble hmax hlast
  rw [if_pos hpos] at hbatch
  have h := Sequence_share.reload_cache_of_begin (s := s) (hD.valid hR) hb hble hbatch
  rw [hD.write_back hR, seq_field_store_of_lt (by decide)] at h
  -- The round counter moves off `0`, even where its store clamps it.
  have hround : seq_field_store (D.round + 1) ≠ 0 := by
    apply seq_field_store_ne_zero
    intro h0
    have h1 := congrArg UInt64.toNat h0
    have hlt := hD.round_lt
    rw [toNat_add_of_lt (by simp; omega)] at h1
    simp at h1
  refine ⟨_, _, _, h, rfl,
    ⟨rfl, Nat.zero_le _, seq_field_store_lt _, fun h0 => absurd h0.symm hR.maxvalue_ne_zero, ?_⟩,
    share_ok_of_reload hD s hreach hble
      (.inl ⟨hD.maxvalue, fun h => absurd h hcy, fun _ => ⟨rfl, hround⟩⟩), .inr rfl⟩
  intro b' hb'
  simp only [reload_cache_begin, ↓reduceIte, hround, Option.some.injEq] at hb'
  rw [← hb']
  exact Counter.reach_minvalue hR.counter_wf (by simp [hcy]) _

/-- A batch below `maxvalue`: the row written resumes at its end. -/
theorem reloaded_mid
    (hmid : D.cache.toNat + 1 < (D.maxvalue.toNat - b.toNat) / D.increment.toNat)
    (s : Sequence_share) : Reloaded R D b s := by
  have hreach := hD.reach b hb
  have hble : b.toNat ≤ D.maxvalue.toNat := by rw [hD.maxvalue]; exact hreach.1
  have hmax : D.maxvalue.toNat < 2 ^ 63 := by rw [hD.maxvalue]; exact hR.maxvalue_lt
  have hbatch := reload_cache_batch_of_mid hble hmax hmid
  obtain ⟨hE, hElt⟩ := toNat_batch_end hble hmax hmid
  have h := Sequence_share.reload_cache_of_begin (s := s) (hD.valid hR) hb hble hbatch
  rw [hD.write_back hR, seq_field_store_of_lt (by omega), seq_field_store_of_lt hD.round_lt] at h
  -- The batch's end, `cache + 1` increments past `b`, in numbers.
  have hinc : 1 ≤ D.increment.toNat := by rw [hD.increment]; exact hR.bounds.2.2.1
  have hpos : 1 ≤ (D.cache.toNat + 1) * D.increment.toNat :=
    Nat.one_le_iff_ne_zero.mpr (Nat.mul_ne_zero (by omega) (by omega))
  have hEmax : (b + (D.cache + 1) * D.increment).toNat < R.maxvalue.toNat := by
    rw [← hD.maxvalue]; omega
  have hne0 : b + (D.cache + 1) * D.increment ≠ 0 := by
    intro h0
    have := congrArg UInt64.toNat h0
    simp only [UInt64.toNat_zero] at this
    omega
  have hnemax : b + (D.cache + 1) * D.increment ≠ R.maxvalue := by
    intro h0
    have := congrArg UInt64.toNat h0
    omega
  have hEreach : R.counter.Reach R.start.toNat (b + (D.cache + 1) * D.increment).toNat := by
    rw [hE]
    have hk := hreach.add_mul (D.cache.toNat + 1) (by simp only [st_seq_cache.counter_increment,
      st_seq_cache.counter_maxvalue, ← hD.increment]; omega)
    simpa only [st_seq_cache.counter_increment, ← hD.increment] using hk
  have hdvd : R.increment.toNat ∣ (b + (D.cache + 1) * D.increment).toNat - b.toNat := by
    rw [hE, Nat.add_sub_cancel_left, ← hD.increment]
    exact Dvd.intro_left _ rfl
  refine ⟨_, _, _, h, rfl, ⟨rfl, hEmax.le, hD.round_lt, fun h0 => absurd h0 hnemax, ?_⟩,
    share_ok_of_reload hD s hreach (by omega) (.inr ⟨hEmax, rfl, by simp only; omega, hdvd⟩),
    .inl (by simp only; omega)⟩
  intro b' hb'
  simp only [reload_cache_begin, hne0, hnemax, ↓reduceIte, Option.some.injEq] at hb'
  rw [← hb']
  exact hEreach

/-- **A reload** from a committed row of the run succeeds, whichever batch it makes. -/
theorem reload_cache_spec (s : Sequence_share) : Reloaded R D b s := by
  by_cases hlast : (D.maxvalue.toNat - b.toNat) / D.increment.toNat ≤ D.cache.toNat + 1
  · by_cases hcy : R.cycle = 0
    · exact reloaded_run_out hR hD hb hlast hcy s
    · exact reloaded_next_round hR hD hb hlast hcy s
  · exact reloaded_mid hR hD hb (by omega) s

end reload

/-- Where `quick_read` does not hit, it leaves the share as it was, and the state's next
    value is where a reload of the committed row begins. -/
theorem quick_read_miss {σ : Sequence_state} (hσ : σ.Inv R)
    (hmiss : ¬ (σ.share.cache_valid = true ∧
      (σ.share.caches.nextval.toNat < σ.share.cache_end.toNat ∨
        σ.share.caches.maxvalue = σ.share.cache_end)))
    (lv : st_seq_cache) :
    ∃ st, σ.share.quick_read lv = (st, lv, σ.share) ∧
      (st = CACHE_INVALID ∨ st = CACHE_ROUND_OUT) ∧
      σ.next_value = (reload_cache_begin σ.durable).map UInt64.toNat := by
  cases hv : σ.share.cache_valid with
  | false =>
    exact ⟨_, σ.share.quick_read_of_invalid hv lv, .inl rfl, by simp [Sequence_state.next_value, hv]⟩
  | true =>
    -- A valid cache misses only at the end of a batch below `maxvalue`, where the
    -- committed row resumes.
    have hs := hσ.share hv
    rw [hv] at hmiss
    rcases hs.batch with ⟨he, -⟩ | ⟨he, hD', hpos, -⟩
    · exact absurd ⟨rfl, .inr (hs.maxvalue.trans he.symm)⟩ hmiss
    · have hne : σ.share.caches.maxvalue ≠ σ.share.cache_end := by
        intro h
        rw [← hs.maxvalue.symm.trans h] at he
        omega
      have hge : σ.share.cache_end.toNat ≤ σ.share.caches.nextval.toNat := by
        by_contra hlt
        exact hmiss ⟨rfl, .inl (by omega)⟩
      have heq : σ.share.caches.nextval = σ.share.cache_end :=
        UInt64.ext_iff.mpr (by have := hs.nextval_le; omega)
      have hne0 : σ.durable.nextval ≠ 0 := by
        rw [hD']
        intro h0
        rw [h0] at hpos
        simp at hpos
      have hnemax : σ.durable.nextval ≠ σ.durable.maxvalue := by
        rw [hD', hσ.durable.maxvalue]
        intro h
        rw [h] at he
        omega
      refine ⟨_, σ.share.quick_read_of_round_out hv hne hge lv, .inr rfl, ?_⟩
      simp [Sequence_state.next_value, hv, reload_cache_begin_of_ne hne0 hnemax, hD', heq]

/-- A read that hands out the state's next value `v`: the counter moves on, the row
    filled carries `v` unless filling it failed, and for a non-cycling sequence the
    committed row is past `v` or says the sequence ran out. -/
def Handed_out (R : st_seq_cache) (env : Env) (σ : Sequence_state)
    (r : Except Nat st_seq_cache × Sequence_state) : Prop :=
  ∃ v, σ.next_value = some v ∧ r.2.next_value = R.counter.next v ∧
    r.1.map (·.currval.toNat) =
      (if env.fill_sequence_fields then .error HA_ERR_SEQUENCE_ACCESS_ERROR else .ok v) ∧
    (R.cycle = 0 → v < r.2.durable.nextval.toNat ∨ r.2.durable.nextval = R.maxvalue)

/-- A read that fails and leaves the next value where it was; with every engine call
    succeeding, only because the sequence has run out. -/
def Stalled (env : Env) (σ : Sequence_state) (r : Except Nat st_seq_cache × Sequence_state) :
    Prop :=
  ∃ e, r.1 = .error e ∧ r.2.next_value = σ.next_value ∧
    (env = Env.ok → σ.next_value = none ∧ e = HA_ERR_SEQUENCE_RUN_OUT)

/-- The values a hit hands out fit a column. -/
theorem Share_ok.nextval_lt (hR : Row_ok R) (hs : Share_ok R D s) :
    s.caches.nextval.toNat < 2 ^ 63 := by
  have := hs.reach.1
  have := hR.maxvalue_lt
  simp only [st_seq_cache.counter_maxvalue] at *
  omega

/-- A read through a valid cache that hits. -/
theorem rnd_next_of_cache_hit {env : Env} {σ : Sequence_state} (hR : Row_ok R) (hσ : σ.Inv R)
    (hl : env.lock_sequence_table = false)
    (hhit : σ.share.cache_valid = true ∧
      (σ.share.caches.nextval.toNat < σ.share.cache_end.toNat ∨
        σ.share.caches.maxvalue = σ.share.cache_end)) :
    (ha_sequence.rnd_next env σ).2.Inv R ∧ Handed_out R env σ (ha_sequence.rnd_next env σ) := by
  have hs := hσ.share hhit.1
  obtain ⟨s', hq, hinv, hnext, hbelow⟩ :=
    quick_read_hit hR hσ.durable hs hhit.1 hhit.2 σ.share.caches
  rw [ha_sequence.rnd_next_of_hit hl hq]
  exact ⟨hinv, _, by simp [Sequence_state.next_value, hhit.1], hnext,
    ha_sequence.fill_currval env (hs.nextval_lt hR), hbelow⟩

/-- A read that goes to the base table: it reloads and hands out the first value of the
    new batch, or fails with the committed row as it was. -/
theorem rnd_next_of_miss {env : Env} {σ : Sequence_state} (hR : Row_ok R) (hσ : σ.Inv R)
    (hl : env.lock_sequence_table = false)
    (hmiss : ¬ (σ.share.cache_valid = true ∧
      (σ.share.caches.nextval.toNat < σ.share.cache_end.toNat ∨
        σ.share.caches.maxvalue = σ.share.cache_end))) :
    (ha_sequence.rnd_next env σ).2.Inv R ∧
      (Handed_out R env σ (ha_sequence.rnd_next env σ) ∨ Stalled env σ (ha_sequence.rnd_next env σ)) := by
  obtain ⟨st, hq, hst, hnv⟩ := quick_read_miss hσ hmiss σ.share.caches
  rcases hu : ha_sequence.update_and_reload env σ.share σ.durable with ⟨e, s₁, D₁⟩
  by_cases he : e = 0
  · -- The transaction committed: the reload it made begins where the row said.
    subst he
    obtain ⟨c, hr⟩ := ha_sequence.update_and_reload_of_ok (by rw [hu])
    rw [hu] at hr
    cases hb : reload_cache_begin σ.durable with
    | none =>
      rw [Sequence_share.reload_cache_of_begin_none (hσ.durable.valid hR) hb] at hr
      simp [HA_ERR_SEQUENCE_RUN_OUT] at hr
    | some b =>
      obtain ⟨c', s₁', rec, hr', hb₁, hrec, hs₁, hhit₁⟩ :=
        reload_cache_spec hR hσ.durable hb σ.share
      rw [hr'] at hr
      simp only [Prod.mk.injEq] at hr
      obtain ⟨-, -, rfl, rfl⟩ := hr
      -- Marked valid, the new batch hits at its first value.
      obtain ⟨s₂, hq₂, hinv₂, hnext₂, hbelow₂⟩ := quick_read_hit hR hrec hs₁ rfl
        (by simpa only [Sequence_share.set_valid] using hhit₁.imp_left (fun h => hb₁ ▸ h))
        σ.share.caches
      rw [ha_sequence.rnd_next_of_reload_hit hl hq hst hu hq₂]
      simp only [Sequence_share.set_valid, hb₁] at hnext₂ hbelow₂
      refine ⟨hinv₂, .inl ⟨b.toNat, by simp [hnv, hb], hnext₂, ?_, hbelow₂⟩⟩
      have hlt : ({ (s₁'.set_valid true).caches with
          currval := (s₁'.set_valid true).caches.nextval }).currval.toNat < 2 ^ 63 :=
        hs₁.nextval_lt hR
      simpa only [Sequence_share.set_valid, hb₁] using ha_sequence.fill_currval env hlt
  · -- The transaction failed: the committed row is as it was, the cache invalid.
    have hD₁ : D₁ = σ.durable := by
      have h := ha_sequence.update_and_reload_of_error (by rw [hu]; exact he)
      rwa [hu] at h
    subst hD₁
    rw [ha_sequence.rnd_next_of_reload_error hl hq hst hu he]
    refine ⟨hσ.durable.inv_invalid rfl, .inr ⟨e, rfl, by
      rw [hnv]; simp [Sequence_state.next_value, Sequence_share.set_valid], ?_⟩⟩
    rintro rfl
    rcases hr : σ.share.reload_cache σ.durable with ⟨e', c, s', rec⟩
    have he' := ha_sequence.update_and_reload_ok hr
    rw [hu] at he'
    subst he'
    cases hb : reload_cache_begin σ.durable with
    | none =>
      rw [Sequence_share.reload_cache_of_begin_none (hσ.durable.valid hR) hb] at hr
      simp only [Prod.mk.injEq] at hr
      exact ⟨by simp [hnv, hb], hr.1.symm⟩
    | some b =>
      -- With every call succeeding, a reload that can begin succeeds.
      obtain ⟨_, _, _, hr', -⟩ := reload_cache_spec hR hσ.durable hb σ.share
      rw [hr'] at hr
      simp only [Prod.mk.injEq] at hr
      exact absurd hr.1.symm he

/-- **What one read does.** From a state of a run, a read hands out the state's next
    value or stalls, and the state after it is one of the run. -/
theorem rnd_next_cases (env : Env) {σ : Sequence_state} (hR : Row_ok R) (hσ : σ.Inv R) :
    (ha_sequence.rnd_next env σ).2.Inv R ∧
      (Handed_out R env σ (ha_sequence.rnd_next env σ) ∨
        Stalled env σ (ha_sequence.rnd_next env σ)) := by
  cases hl : env.lock_sequence_table with
  | true =>
    -- The table lock fails before anything is read.
    rw [ha_sequence.rnd_next_of_lock hl]
    exact ⟨hσ, .inr ⟨_, rfl, rfl, fun h => by subst h; simp [Env.ok] at hl⟩⟩
  | false =>
    by_cases hhit : σ.share.cache_valid = true ∧
        (σ.share.caches.nextval.toNat < σ.share.cache_end.toNat ∨
          σ.share.caches.maxvalue = σ.share.cache_end)
    · obtain ⟨hinv, hout⟩ := rnd_next_of_cache_hit hR hσ hl hhit
      exact ⟨hinv, .inl hout⟩
    · exact rnd_next_of_miss hR hσ hl hhit

end read

/-! ## 4. Runs -/

section runs

variable {R : st_seq_cache}

/-- A row as `CREATE SEQUENCE` writes it, `nextval` and `round` `0`, is a committed row of
    its own run, and a reload from it begins at `start`. -/
theorem Durable_ok.init (hR : Row_ok R) (hnext : R.nextval = 0) (hround : R.round = 0) :
    Durable_ok R R := by
  have hbounds := hR.bounds
  refine ⟨rfl, by simp [hnext], hR.fits _ (by simp), fun h => ?_, fun b hb => ?_⟩
  · rw [hnext] at h
    exact absurd h.symm hR.maxvalue_ne_zero
  · simp only [reload_cache_begin, hnext, hround, ↓reduceIte, Option.some.injEq] at hb
    subst hb
    exact ⟨by simp only [st_seq_cache.counter_maxvalue]; omega, .inl ⟨le_refl _, by simp⟩⟩

theorem next_value_init {fresh : Sequence_share} (hnext : R.nextval = 0) (hround : R.round = 0) :
    Sequence_state.next_value ⟨R, fresh.init⟩ = some R.start.toNat := by
  simp [Sequence_state.next_value, Sequence_share.init, Sequence_share.set_valid,
    reload_cache_begin, hnext, hround]

/-- With every engine call succeeding, a read is one step of the counter. -/
theorem rnd_next_ok_step {σ : Sequence_state} (hR : Row_ok R) (hσ : σ.Inv R) :
    (ha_sequence.rnd_next Env.ok σ).1.map (·.currval.toNat) =
        (R.counter.step () σ.next_value).1 ∧
      (ha_sequence.rnd_next Env.ok σ).2.next_value = (R.counter.step () σ.next_value).2 := by
  rcases (rnd_next_cases Env.ok hR hσ).2 with ⟨v, hv, hnext, hout, -⟩ | ⟨e, hout, hnext, hok⟩
  · rw [hv]
    exact ⟨by simpa [Env.ok, Counter.step] using hout, hnext⟩
  · obtain ⟨hnone, rfl⟩ := hok rfl
    rw [hnone] at hnext ⊢
    exact ⟨by rw [hout]; rfl, hnext⟩

/-- The reads of a run from `R`, all engine calls succeeding, simulate `R`'s counter
    through the state's next value. -/
theorem rnd_next_simulation (hR : Row_ok R) :
    Simulation (fun (_ : Unit) σ => ha_sequence.rnd_next Env.ok σ) R.counter.step
      (Sequence_state.Inv R) Sequence_state.next_value (fun o => o.map (·.currval.toNat)) where
  preserves _ _ hσ := (rnd_next_cases Env.ok hR hσ).1
  answer _ _ hσ := (rnd_next_ok_step hR hσ).1
  commutes _ _ hσ := (rnd_next_ok_step hR hσ).2

/-- **The cached engine is the counter.** From a valid row whose columns are non-negative
    `longlong`s, with `nextval` and `round` `0`, and a new share, any number of
    consecutive `NEXTVAL` reads, every engine call succeeding, hand out exactly the
    counter's values: `start, start + increment, …` up to `maxvalue`; then
    `HA_ERR_SEQUENCE_RUN_OUT` for a non-cycling sequence, and for a cycling one the
    rounds from `minvalue`. -/
theorem rnd_next_refines_counter (R : st_seq_cache) (hvalid : check_sequence_values_valid R = false)
    (hfits : R.Fits) (hnext : R.nextval = 0) (hround : R.round = 0) (fresh : Sequence_share)
    (n : Nat) :
    (trace (fun (_ : Unit) σ => ha_sequence.rnd_next Env.ok σ) ⟨R, fresh.init⟩
        (List.replicate n ())).map (fun p => p.1.map (·.currval.toNat)) =
      (List.range n).map (R.counter.answer (some R.start.toNat)) := by
  have hR : Row_ok R := ⟨hvalid, hfits⟩
  have hσ : Sequence_state.Inv R ⟨R, fresh.init⟩ := (Durable_ok.init hR hnext hround).inv_invalid rfl
  have hsim := (rnd_next_simulation hR).answers_trace (List.replicate n ()) hσ
  rw [next_value_init hnext hround] at hsim
  rw [hsim]
  apply Counter.trace_answers hR.counter_wf n
  intro v hv
  cases hv
  have := hR.bounds
  simp only [st_seq_cache.counter_maxvalue]
  omega

/-- A row stepping by three from `1` to `10`, two values to a batch. -/
def small_sequence : st_seq_cache := ⟨0, 0, 1, 10, 1, 3, 1, 0, 0⟩

theorem small_sequence_valid : check_sequence_values_valid small_sequence = false := by decide

theorem small_sequence_fits : small_sequence.Fits := by
  simp [st_seq_cache.Fits, small_sequence]

theorem rnd_next_refines_counter_small :
    check_sequence_values_valid small_sequence = false ∧ small_sequence.Fits ∧
      small_sequence.nextval = 0 ∧ small_sequence.round = 0 ∧
      (trace (fun (_ : Unit) σ => ha_sequence.rnd_next Env.ok σ)
          ⟨small_sequence, (⟨small_sequence, 0, false⟩ : Sequence_share).init⟩
          (List.replicate 5 ())).map (fun p => p.1.map (·.currval.toNat)) =
        (List.range 5).map (small_sequence.counter.answer (some small_sequence.start.toNat)) :=
  ⟨small_sequence_valid, small_sequence_fits, rfl, rfl,
    rnd_next_refines_counter _ small_sequence_valid small_sequence_fits rfl rfl _ 5⟩

/-- A valid row whose `start` is `2^63`: a negative BIGINT, read as unsigned. -/
def sign_bit_sequence : st_seq_cache :=
  ⟨0, 0, 0, 18446744073709551615, 9223372036854775808, 1, 0, 0, 0⟩

/-- From `sign_bit_sequence` the first read fills `currval` with `LONGLONG_MAX`, not
    `start`, and the write-back clamps `start` and `maxvalue` to `LONGLONG_MAX`, so the
    second read fails `check_sequence_values_valid`; the counter hands out `2^63` and
    `2^63 + 1`. -/
theorem rnd_next_sign_bit_start :
    check_sequence_values_valid sign_bit_sequence = false ∧ sign_bit_sequence.nextval = 0 ∧
      sign_bit_sequence.round = 0 ∧
      (trace (fun (_ : Unit) σ => ha_sequence.rnd_next Env.ok σ)
          ⟨sign_bit_sequence, (⟨sign_bit_sequence, 0, false⟩ : Sequence_share).init⟩
          (List.replicate 2 ())).map (fun p => p.1.map (·.currval.toNat)) =
        [.ok 9223372036854775807, .error HA_ERR_SEQUENCE_INVALID] ∧
      (List.range 2).map (sign_bit_sequence.counter.answer (some sign_bit_sequence.start.toNat)) =
        [.ok 9223372036854775808, .ok 9223372036854775809] := by
  decide

end runs

/-! ## 5. A non-cycling sequence hands out every value once -/

/-- The value an event hands out: that of a read whose row was filled. -/
def returned : Option (Except Nat st_seq_cache) → Option Nat
  | some (.ok row) => some row.currval.toNat
  | _ => none

/-- What every value the state can still hand out is at least: its next value, or past
    `maxvalue` once the sequence ran out. -/
def Sequence_state.bound (R : st_seq_cache) (σ : Sequence_state) : Nat :=
  σ.next_value.getD (R.maxvalue.toNat + 1)

section nocycle

variable {R : st_seq_cache} {σ : Sequence_state}

theorem Sequence_event.step_inv (hR : Row_ok R) (hσ : σ.Inv R) (ev : Sequence_event) :
    (ev.step σ).2.Inv R := by
  cases ev with
  | nextval env => exact (rnd_next_cases env hR hσ).1
  | invalidate => exact hσ.durable.inv_invalid rfl
  | restart fresh => exact hσ.durable.inv_invalid rfl

/-- An event that hands out a value is a read handing out the state's next value. -/
theorem Sequence_event.step_returned (hR : Row_ok R) (hσ : σ.Inv R) {ev : Sequence_event}
    {w : Nat} (h : returned (ev.step σ).1 = some w) :
    σ.next_value = some w ∧ (ev.step σ).2.next_value = R.counter.next w ∧
      (R.cycle = 0 → w < (ev.step σ).2.durable.nextval.toNat ∨
        (ev.step σ).2.durable.nextval = R.maxvalue) := by
  cases ev with
  | invalidate => simp [Sequence_event.step, returned] at h
  | restart fresh => simp [Sequence_event.step, returned] at h
  | nextval env =>
    simp only [Sequence_event.step] at h ⊢
    rcases hout : (ha_sequence.rnd_next env σ).1 with e | row
    · simp [hout, returned] at h
    · rw [hout] at h
      simp only [returned, Option.some.injEq] at h
      rcases (rnd_next_cases env hR hσ).2 with ⟨v, hv, hnext, hmap, hbelow⟩ | ⟨e, he, -⟩
      · -- The row filled carries the value handed out.
        rw [hout] at hmap
        have hvw : v = w := by
          split at hmap
          · simp [Except.map] at hmap
          · simp only [Except.map, Except.ok.injEq] at hmap
            rw [← h, hmap]
        subst hvw
        exact ⟨hv, hnext, hbelow⟩
      · rw [hout] at he
        cases he

/-- The next value of a non-cycling sequence is below the bound after it. -/
theorem bound_gt_of_next (hR : Row_ok R) (hcy : R.cycle = 0) {σ' : Sequence_state} {v : Nat}
    (hv : v ≤ R.maxvalue.toNat) (h : σ'.next_value = R.counter.next v) : v < σ'.bound R := by
  unfold Sequence_state.bound
  rw [h]
  cases hn : R.counter.next v with
  | none => simp only [Option.getD_none]; omega
  | some w => exact Counter.lt_next hR.counter_wf (by simp [hcy]) hn

/-- Invalidating the cache of a non-cycling sequence skips values, never back. -/
theorem Sequence_state.Inv.bound_le_invalid (hR : Row_ok R) (hcy : R.cycle = 0)
    (hσ : σ.Inv R) {s : Sequence_share} (hs : s.cache_valid = false) :
    σ.bound R ≤ (⟨σ.durable, s⟩ : Sequence_state).bound R := by
  unfold Sequence_state.bound Sequence_state.next_value
  simp only [hs, Bool.false_eq_true, ↓reduceIte]
  cases hv : σ.share.cache_valid with
  | false => simp
  | true =>
    have hsh := hσ.share hv
    have hle := hsh.nextval_le
    simp only [↓reduceIte, Option.getD_some]
    rcases hsh.batch with ⟨he, hlast, -⟩ | ⟨he, hD', hpos, -⟩
    · -- The row says the sequence ran out: no reload hands out anything.
      have hD0 : σ.durable.nextval = σ.durable.maxvalue := by
        rw [hσ.durable.maxvalue]; exact hlast hcy
      have hnone : reload_cache_begin σ.durable = none := by
        simp [reload_cache_begin, hD0, hσ.durable.maxvalue, hR.maxvalue_ne_zero]
      rw [hnone, Option.map_none, Option.getD_none, ← he]
      omega
    · -- The reload resumes at the batch's end.
      have hne0 : σ.durable.nextval ≠ 0 := by
        rw [hD']
        intro h0
        rw [h0] at hpos
        simp at hpos
      have hnemax : σ.durable.nextval ≠ σ.durable.maxvalue := by
        rw [hD', hσ.durable.maxvalue]
        intro h
        rw [h] at he
        omega
      rw [reload_cache_begin_of_ne hne0 hnemax, hD']
      simpa using hle

/-- The events of a run of a non-cycling sequence hand out values above a bound that no
    event lowers. -/
theorem sequence_rising (hR : Row_ok R) (hcy : R.cycle = 0) :
    Rising Sequence_event.step (Sequence_state.Inv R) (Sequence_state.bound R)
      (fun o => returned o) where
  preserves ev _ hσ := Sequence_event.step_inv hR hσ ev
  mono ev σ hσ := by
    cases ev with
    | nextval env =>
      rcases (rnd_next_cases env hR hσ).2 with ⟨v, hv, hnext, -⟩ | ⟨e, -, hnext, -⟩
      · have hlt := bound_gt_of_next hR hcy (hσ.next_value_reach hv).1 hnext
        simp only [Sequence_state.bound, hv, Option.getD_some] at hlt ⊢
        exact hlt.le
      · simp only [Sequence_event.step, Sequence_state.bound, hnext, le_refl]
    | invalidate => exact hσ.bound_le_invalid hR hcy rfl
    | restart fresh => exact hσ.bound_le_invalid hR hcy rfl
  above ev σ w hσ h := by
    obtain ⟨hv, hnext, -⟩ := Sequence_event.step_returned hR hσ h
    refine ⟨by simp [Sequence_state.bound, hv], ?_⟩
    exact bound_gt_of_next hR hcy (hσ.next_value_reach hv).1 hnext

/-- **A non-cycling sequence never hands out a value twice.** From a valid non-cycling
    row whose columns are non-negative `longlong`s, with `nextval` and `round` `0`, and a
    new share, along any run of reads (whatever the engine answers), invalidations and
    restarts, the values handed out strictly increase; each is in `[start, maxvalue]`,
    congruent to `start` modulo `increment`, and below the committed `nextval` after its
    read unless that is `maxvalue`. -/
theorem nocycle_nextval_unique (R : st_seq_cache) (hvalid : check_sequence_values_valid R = false)
    (hfits : R.Fits) (hcy : R.cycle = 0) (hnext : R.nextval = 0) (hround : R.round = 0)
    (fresh : Sequence_share) (es : List Sequence_event) :
    ((trace Sequence_event.step ⟨R, fresh.init⟩ es).filterMap (fun p => returned p.1)).Pairwise
        (· < ·) ∧
      ∀ p ∈ trace Sequence_event.step ⟨R, fresh.init⟩ es, ∀ v, returned p.1 = some v →
        R.start.toNat ≤ v ∧ v ≤ R.maxvalue.toNat ∧
          v % R.increment.toNat = R.start.toNat % R.increment.toNat ∧
          (v < p.2.durable.nextval.toNat ∨ p.2.durable.nextval = R.maxvalue) := by
  have hR : Row_ok R := ⟨hvalid, hfits⟩
  have hσ : Sequence_state.Inv R ⟨R, fresh.init⟩ := (Durable_ok.init hR hnext hround).inv_invalid rfl
  refine ⟨(sequence_rising hR hcy).pairwise_trace es hσ, ?_⟩
  refine forall_mem_trace (sequence_rising hR hcy).preserves ?_ es hσ
  intro ev σ hσ' v hv
  obtain ⟨hnv, -, hbelow⟩ := Sequence_event.step_returned hR hσ' hv
  -- A non-cycling sequence reaches only the values of its first round.
  obtain ⟨hle, hround'⟩ := hσ'.next_value_reach hnv
  rcases hround' with ⟨hs, hd⟩ | ⟨hcyc, -⟩
  · exact ⟨hs, hle, ((Nat.modEq_iff_dvd' hs).mpr hd).symm, hbelow hcy⟩
  · simp [hcy] at hcyc

theorem nocycle_nextval_unique_small :
    check_sequence_values_valid small_sequence = false ∧ small_sequence.Fits ∧
      small_sequence.cycle = 0 ∧ small_sequence.nextval = 0 ∧ small_sequence.round = 0 ∧
      let tr := trace Sequence_event.step
        ⟨small_sequence, (⟨small_sequence, 0, false⟩ : Sequence_share).init⟩
        [.nextval Env.ok, .invalidate, .nextval Env.ok, .restart ⟨small_sequence, 0, true⟩,
          .nextval Env.ok]
      (tr.filterMap (fun p => returned p.1)).Pairwise (· < ·) ∧
        ∀ p ∈ tr, ∀ v, returned p.1 = some v →
          small_sequence.start.toNat ≤ v ∧ v ≤ small_sequence.maxvalue.toNat ∧
            v % small_sequence.increment.toNat =
              small_sequence.start.toNat % small_sequence.increment.toNat ∧
            (v < p.2.durable.nextval.toNat ∨ p.2.durable.nextval = small_sequence.maxvalue) :=
  ⟨small_sequence_valid, small_sequence_fits, rfl, rfl, rfl,
    nocycle_nextval_unique _ small_sequence_valid small_sequence_fits rfl rfl rfl _ _⟩

/-- A valid non-cycling row whose `nextval` is off the progression from `start`:
    `check_sequence_values_valid` does not look at `nextval`. -/
def off_progression_sequence : st_seq_cache := ⟨0, 2, 0, 10, 1, 2, 0, 0, 0⟩

/-- The first read from `off_progression_sequence` hands out `2`, which is not congruent
    to `start = 1` modulo `increment = 2`. -/
theorem nextval_off_progression :
    check_sequence_values_valid off_progression_sequence = false ∧
      off_progression_sequence.cycle = 0 ∧
      (trace Sequence_event.step
          ⟨off_progression_sequence, (⟨off_progression_sequence, 0, false⟩ : Sequence_share).init⟩
          [.nextval Env.ok]).map (fun p => returned p.1) = [some 2] ∧
      2 % off_progression_sequence.increment.toNat ≠
        off_progression_sequence.start.toNat % off_progression_sequence.increment.toNat := by
  decide

end nocycle

end AliSql
