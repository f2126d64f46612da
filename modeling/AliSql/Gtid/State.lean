import Mathlib
import AliSql.Gtid.Text

/-!
# `Gtid_state`: handing out GTIDs to sessions

`Gtid_state` (`rpl_gtid_state.cc`) keeps the GTIDs the server has logged
(`logged_gtids`, the value of `gtid_executed`), those purged from the binary logs
(`lost_gtids`), and the GTIDs sessions own while they commit (`owned_gtids`). A
session committing with `GTID_NEXT = AUTOMATIC` takes a GNO of the server's SID in
`Group_cache::generate_automatic_gno`; `get_automatic_gno` finds it by walking the
server's intervals of `logged_gtids` and skipping GNOs that have an owner. What
follows depends on the session's `gtid_precommit`, an AliSQL addition:

* off: the session owns the GTID in `owned_gtids` (`acquire_ownership`); the flush
  logs it (`update_on_flush`), and the commit or a rollback drops the ownership
  (`update_on_commit`, `update_on_rollback`);
* on: the GTID goes into `logged_gtids` at once (`mark_gtid_executed`); a failed
  binlog write takes it out again (`remove_gtid_on_failure`), and the commit only
  clears the session's `owned_gtid`.

The server is a state machine (`Server`, `Server.Op`): the shared `Gtid_state` and
each session's `owned_gtid` and `gtid_precommit`; an operation is one call of one of
these functions for one session, atomic as its SIDNO lock makes it. `write_cache` and
`finish_commit` model the binlog code that chooses between the two paths, and
`set_gtid_precommit` may flip the flag at any time, so what is proved holds for
every mix of the paths and of their failures.

* `get_automatic_gno_spec`: the GNO found is not logged, has no owner and lies in
  `[1, MAX_GNO)`, or it is `-1`;
* `Effect`: everything one call can do to the state and to its session, with one
  lemma per function saying which; `Holding` is the invariant of what the sessions
  hold, and `Holding.effect` proves that every effect keeps it;
* `no_gtid_twice`: on every run from a server that owns nothing, no two sessions
  hold one GTID, and a session only ever comes to hold a GTID that was not logged and
  that no session held.

## Rolling back `SET EXECUTED_GTID_SET`

`add_executed_gtid_set` (`sql_parse.cc`) adds a text to `logged_gtids`, writes the
statement to the binary log and rotates it, and when the write, the commit or the
rotation fails removes the text again (`remove_executed_gtids`). The removal takes the
whole text, not what the addition inserted (`add_executed_gtid_set_rollback`).

Allocation does not fail here, as in the set model: `_add_gtid` and `add_gtid_owner`
always succeed, so the error returns of `mark_gtid_executed`, `acquire_ownership`,
`update_on_flush` and `remove_gtid_on_failure` do not arise. `HAVE_GTID_NEXT_LIST`
is not defined, so `owned_gtid.sidno` is never `-1`, and a SIDNO is a `Nat`.
-/

set_option autoImplicit false
-- the source's `Gtid` lives in the namespace of this development's GTID model
set_option linter.dupNamespace false

namespace AliSql
namespace Gtid

open IntervalList enum_return_status

/-! ## GTIDs, owners and sessions -/

/-- `Gtid`: a SIDNO and a GNO. -/
structure Gtid where
  sidno : Nat
  gno : Int
deriving DecidableEq, Repr

theorem Gtid.eq_of_pair_eq {a b : Gtid} (h : (a.sidno, a.gno) = (b.sidno, b.gno)) : a = b := by
  obtain ⟨h₁, h₂⟩ := Prod.mk.inj h
  cases a
  cases b
  cases h₁
  cases h₂
  rfl

/-- `Owned_gtids`: the thread that owns each GTID, `0` for none, as `get_owner`
    returns it. The source keeps a hash of nodes per SIDNO; what it implements is a
    finite map. -/
structure Owned_gtids where
  get_owner : Gtid → Nat

namespace Owned_gtids

/-- No GTID owned. -/
def empty : Owned_gtids := ⟨fun _ => 0⟩

/-- `Owned_gtids::add_gtid_owner`. -/
def add_gtid_owner (o : Owned_gtids) (gtid : Gtid) (owner : Nat) : Owned_gtids :=
  ⟨Function.update o.get_owner gtid owner⟩

/-- `Owned_gtids::remove_gtid`: the node goes, whoever owns it. -/
def remove_gtid (o : Owned_gtids) (gtid : Gtid) : Owned_gtids :=
  ⟨Function.update o.get_owner gtid 0⟩

@[simp] theorem get_owner_empty (g : Gtid) : empty.get_owner g = 0 := rfl

@[simp] theorem get_owner_add_gtid_owner (o : Owned_gtids) (gtid g : Gtid) (owner : Nat) :
    (o.add_gtid_owner gtid owner).get_owner g = if g = gtid then owner else o.get_owner g :=
  Function.update_apply _ _ _ _

@[simp] theorem get_owner_remove_gtid (o : Owned_gtids) (gtid g : Gtid) :
    (o.remove_gtid gtid).get_owner g = if g = gtid then 0 else o.get_owner g :=
  Function.update_apply _ _ _ _

end Owned_gtids

/-- The part of a `THD` these functions read and write. -/
structure Thd where
  owned_gtid : Gtid
  gtid_precommit : Bool

/-- `THD::clear_owned_gtids`. -/
def Thd.clear_owned_gtids (thd : Thd) : Thd :=
  { thd with owned_gtid := { thd.owned_gtid with sidno := 0 } }

/-- `Gtid_state`, with the `Sid_map` its sets share and the server's SIDNO
    (`get_server_sidno`). -/
structure Gtid_state where
  sid_map : Sid_map
  logged_gtids : Gtid_set
  lost_gtids : Gtid_set
  owned_gtids : Owned_gtids
  server_sidno : Nat

/-! ## `get_automatic_gno` -/

/-- The inner loop of `get_automatic_gno`: from `gno` on, the first of the next `n`
    GNOs of `sidno` that has no owner. -/
def first_unowned (o : Owned_gtids) (sidno : Nat) : Int → Nat → Option Int
  | _, 0 => none
  | gno, n + 1 =>
    if o.get_owner ⟨sidno, gno⟩ = 0 then some gno else first_unowned o sidno (gno + 1) n

/-- The outer loop of `get_automatic_gno`, with the interval iterator at `l` and
    `next_candidate.gno = gno`: try the GNOs before the next interval (before
    `MAX_GNO` past the last one), then go on from the interval's end. `-1` when no
    GNO is free. -/
def get_automatic_gno_loop (o : Owned_gtids) (sidno : Nat) : List Interval → Int → Int
  | [], gno => (first_unowned o sidno gno (MAX_GNO - gno).toNat).getD (-1)
  | iv :: rest, gno =>
    match first_unowned o sidno gno (iv.start - gno).toNat with
    | some g => g
    | none => get_automatic_gno_loop o sidno rest iv.end

/-- `Gtid_state::get_automatic_gno(sidno)`. -/
def Gtid_state.get_automatic_gno (gs : Gtid_state) (sidno : Nat) : Int :=
  get_automatic_gno_loop gs.owned_gtids sidno (gs.logged_gtids.ivs sidno) 1

example : get_automatic_gno_loop Owned_gtids.empty 1 [⟨1, 3⟩, ⟨4, 7⟩] 1 = 3 := by decide

/-- A GNO `get_automatic_gno` may return for `sidno` over the intervals `l`: in
    `[1, MAX_GNO)`, outside `l`, and without an owner. -/
def Free_gno (o : Owned_gtids) (sidno : Nat) (l : List Interval) (gno : Int) : Prop :=
  1 ≤ gno ∧ gno < MAX_GNO ∧ gno ∉ covers Interval.start Interval.end l ∧
    o.get_owner ⟨sidno, gno⟩ = 0

theorem first_unowned_spec (o : Owned_gtids) (sidno : Nat) :
    ∀ (n : Nat) (gno g : Int), first_unowned o sidno gno n = some g →
      gno ≤ g ∧ g < gno + n ∧ o.get_owner ⟨sidno, g⟩ = 0
  | 0, _, _, h => by simp [first_unowned] at h
  | n + 1, gno, g, h => by
    unfold first_unowned at h
    split at h
    · rename_i hfree
      cases h
      exact ⟨le_rfl, by omega, hfree⟩
    · obtain ⟨h₁, h₂, h₃⟩ := first_unowned_spec o sidno n (gno + 1) g h
      exact ⟨by omega, by omega, h₃⟩

/-- The outer loop returns `-1` or a free GNO past its start, when it starts at or
    before every interval left. Induction on the intervals; past an interval the
    candidate is its end, which is before every later interval. -/
theorem get_automatic_gno_loop_spec (o : Owned_gtids) (sidno : Nat) :
    ∀ (l : List Interval) (gno : Int), Normal l → 1 ≤ gno → (∀ iv ∈ l, gno ≤ iv.start) →
      get_automatic_gno_loop o sidno l gno = -1 ∨
        (gno ≤ get_automatic_gno_loop o sidno l gno ∧
          Free_gno o sidno l (get_automatic_gno_loop o sidno l gno))
  | [], gno, _, hpos, _ => by
    cases hf : first_unowned o sidno gno (MAX_GNO - gno).toNat with
    | none => exact Or.inl (by simp only [get_automatic_gno_loop, hf, Option.getD_none])
    | some g =>
      obtain ⟨hlo, hhi, hown⟩ := first_unowned_spec o sidno _ gno g hf
      simp only [get_automatic_gno_loop, hf, Option.getD_some]
      exact Or.inr ⟨hlo, by omega, by omega, by simp, hown⟩
  | iv :: rest, gno, hl, hpos, hle => by
    obtain ⟨hse, hsep, -⟩ := sep_cons.mp hl.sep
    have hiv := hl.bounds (List.mem_cons_self ..)
    have hstart := hle iv (List.mem_cons_self ..)
    cases hf : first_unowned o sidno gno (iv.start - gno).toNat with
    | some g =>
      obtain ⟨hlo, hhi, hown⟩ := first_unowned_spec o sidno _ gno g hf
      have hg : g < iv.start := by omega
      simp only [get_automatic_gno_loop, hf]
      refine Or.inr ⟨hlo, by omega, by omega, fun hmem => ?_, hown⟩
      exact absurd (hl.sep.lo_le_of_mem hmem) (not_le.mpr hg)
    | none =>
      simp only [get_automatic_gno_loop, hf]
      rcases get_automatic_gno_loop_spec o sidno rest iv.end hl.tail (by omega)
          (fun y hy => le_of_lt (hsep y hy)) with h | ⟨hge, hpos', hmax, hnot, hown⟩
      · exact Or.inl h
      · refine Or.inr ⟨by omega, hpos', hmax, ?_, hown⟩
        rw [covers_cons, Set.mem_union, Set.mem_Ico]
        rintro (⟨-, hlt⟩ | hmem)
        · omega
        · exact hnot hmem

/-- **`get_automatic_gno` finds a free GNO or says there is none**: the GNO is in
    `[1, MAX_GNO)`, not logged for the SIDNO, and has no owner. -/
theorem Gtid_state.get_automatic_gno_spec {gs : Gtid_state} (hs : gs.logged_gtids.NF)
    (sidno : Nat) :
    gs.get_automatic_gno sidno = -1 ∨
      (1 ≤ gs.get_automatic_gno sidno ∧ gs.get_automatic_gno sidno < MAX_GNO ∧
        (sidno, gs.get_automatic_gno sidno) ∉ gs.logged_gtids.denote ∧
        gs.owned_gtids.get_owner ⟨sidno, gs.get_automatic_gno sidno⟩ = 0) := by
  have hl := hs.ivs sidno
  rcases get_automatic_gno_loop_spec gs.owned_gtids sidno _ 1 hl le_rfl
      (fun iv hiv => (hl.bounds hiv).1) with h | ⟨-, hpos, hmax, hnot, hown⟩
  · exact Or.inl h
  · exact Or.inr ⟨hpos, hmax, fun hmem => hnot (Gtid_set.mem_denote.mp hmem).2, hown⟩

/-- No GNO before the one `first_unowned` finds is free of owners. -/
theorem first_unowned_least (o : Owned_gtids) (sidno : Nat) :
    ∀ (n : Nat) (gno g : Int), first_unowned o sidno gno n = some g →
      ∀ h, gno ≤ h → h < g → o.get_owner ⟨sidno, h⟩ ≠ 0
  | 0, _, _, hf => by simp [first_unowned] at hf
  | n + 1, gno, g, hf => by
    intro h hlo hhi
    unfold first_unowned at hf
    split at hf
    · cases hf
      omega
    · rename_i hown
      -- `gno` itself has an owner; the rest is the shorter search from `gno + 1`
      rcases eq_or_lt_of_le hlo with rfl | hlt
      · exact hown
      · exact first_unowned_least o sidno n (gno + 1) g hf h (by omega) hhi

/-- When `first_unowned` finds nothing, every GNO of its range has an owner. -/
theorem first_unowned_eq_none (o : Owned_gtids) (sidno : Nat) :
    ∀ (n : Nat) (gno : Int), first_unowned o sidno gno n = none →
      ∀ h, gno ≤ h → h < gno + n → o.get_owner ⟨sidno, h⟩ ≠ 0
  | 0, _, _, h, hlo, hhi => by omega
  | n + 1, gno, hf, h, hlo, hhi => by
    unfold first_unowned at hf
    split at hf
    · cases hf
    · rename_i hown
      rcases eq_or_lt_of_le hlo with rfl | hlt
      · exact hown
      · exact first_unowned_eq_none o sidno n (gno + 1) hf h (by omega) (by omega)

/-- A GNO free of the list's intervals is free of its tail's. -/
theorem Free_gno.of_cons {o : Owned_gtids} {sidno : Nat} {iv : Interval} {l : List Interval}
    {g : Int} (h : Free_gno o sidno (iv :: l) g) : Free_gno o sidno l g := by
  obtain ⟨hpos, hmax, hnot, hown⟩ := h
  refine ⟨hpos, hmax, fun hmem => hnot ?_, hown⟩
  rw [covers_cons]
  exact Or.inr hmem

/-- Every free GNO from the loop's start on bounds what the loop returns, and the loop
    does not give up while one exists. Induction on the intervals: a free GNO is either
    in the gap the inner loop searched, where every GNO has an owner, or past the
    interval, where the loop goes on. -/
theorem get_automatic_gno_loop_le (o : Owned_gtids) (sidno : Nat) :
    ∀ (l : List Interval) (gno : Int), Normal l → 1 ≤ gno → ∀ g, gno ≤ g →
      Free_gno o sidno l g →
      get_automatic_gno_loop o sidno l gno ≠ -1 ∧ get_automatic_gno_loop o sidno l gno ≤ g
  | [], gno, _, hpos, g, hg, hfree => by
    obtain ⟨-, hmax, -, hown⟩ := hfree
    cases hf : first_unowned o sidno gno (MAX_GNO - gno).toNat with
    | none =>
      exact absurd hown (first_unowned_eq_none o sidno _ gno hf g hg (by omega))
    | some r =>
      have hr := (first_unowned_spec o sidno _ gno r hf).1
      have hle : r ≤ g := not_lt.mp fun hlt => first_unowned_least o sidno _ gno r hf g hg hlt hown
      simp only [get_automatic_gno_loop, hf, Option.getD_some]
      exact ⟨by omega, hle⟩
  | iv :: rest, gno, hl, hpos, g, hg, hfree => by
    have htail := hfree.of_cons
    obtain ⟨-, -, hnot, hown⟩ := hfree
    cases hf : first_unowned o sidno gno (iv.start - gno).toNat with
    | some r =>
      have hr := (first_unowned_spec o sidno _ gno r hf).1
      have hle : r ≤ g := not_lt.mp fun hlt => first_unowned_least o sidno _ gno r hf g hg hlt hown
      simp only [get_automatic_gno_loop, hf]
      exact ⟨by omega, hle⟩
    | none =>
      simp only [get_automatic_gno_loop, hf]
      -- `g` is past the gap, whose GNOs all have owners, and not inside `iv`
      have hstart : iv.start ≤ g := not_lt.mp fun hlt =>
        first_unowned_eq_none o sidno _ gno hf g hg (by omega) hown
      have hend : iv.end ≤ g := not_lt.mp fun hlt => hnot (by
        rw [covers_cons]
        exact Or.inl ⟨hstart, hlt⟩)
      have hiv := hl.bounds (List.mem_cons_self ..)
      have hlt := hl.sep.head_lt
      exact get_automatic_gno_loop_le o sidno rest iv.end hl.tail (by omega) g hend htail

/-- **`get_automatic_gno` returns the least free GNO.** Over a logged set in normal
    form, the GNO returned for `sidno` is the least `g ≥ 1` that the logged intervals
    of `sidno` do not cover and that no thread owns (and it is below `MAX_GNO`), or it
    is `-1` and no such `g` lies below `MAX_GNO`. -/
theorem Gtid_state.get_automatic_gno_least {gs : Gtid_state} (hs : gs.logged_gtids.NF)
    (sidno : Nat) :
    (gs.get_automatic_gno sidno = -1 ∧
        ∀ g < MAX_GNO, ¬ (1 ≤ g ∧ g ∉ covers Interval.start Interval.end (gs.logged_gtids.ivs sidno) ∧
          gs.owned_gtids.get_owner ⟨sidno, g⟩ = 0)) ∨
      (gs.get_automatic_gno sidno < MAX_GNO ∧
        IsLeast {g : Int | 1 ≤ g ∧ g ∉ covers Interval.start Interval.end (gs.logged_gtids.ivs sidno) ∧
          gs.owned_gtids.get_owner ⟨sidno, g⟩ = 0} (gs.get_automatic_gno sidno)) := by
  have hl := hs.ivs sidno
  -- every free GNO bounds the result and rules out `-1`
  have hle := get_automatic_gno_loop_le gs.owned_gtids sidno _ 1 hl le_rfl
  rcases get_automatic_gno_loop_spec gs.owned_gtids sidno _ 1 hl le_rfl
      (fun iv hiv => (hl.bounds hiv).1) with h | ⟨-, hpos, hmax, hnot, hown⟩
  · refine Or.inl ⟨h, ?_⟩
    rintro g hg ⟨hg₁, hgnot, hgown⟩
    exact (hle g hg₁ ⟨hg₁, hg, hgnot, hgown⟩).1 h
  · refine Or.inr ⟨hmax, ⟨hpos, hnot, hown⟩, ?_⟩
    rintro g ⟨hg₁, hgnot, hgown⟩
    rcases lt_or_ge g MAX_GNO with hg | hg
    · exact (hle g hg₁ ⟨hg₁, hg, hgnot, hgown⟩).2
    · exact le_of_lt (lt_of_lt_of_le hmax hg)

/-- With GNOs 1 and 2 of SIDNO 1 logged and nothing owned, the least free GNO is 3. -/
theorem get_automatic_gno_least_past_interval :
    ∃ gs : Gtid_state, gs.logged_gtids.ivs 1 = [⟨1, 3⟩] ∧ gs.logged_gtids.NF ∧
      gs.get_automatic_gno 1 = 3 ∧
      ((gs.get_automatic_gno 1 = -1 ∧
          ∀ g < MAX_GNO, ¬ (1 ≤ g ∧ g ∉ covers Interval.start Interval.end (gs.logged_gtids.ivs 1) ∧
            gs.owned_gtids.get_owner ⟨1, g⟩ = 0)) ∨
        (gs.get_automatic_gno 1 < MAX_GNO ∧
          IsLeast {g : Int | 1 ≤ g ∧ g ∉ covers Interval.start Interval.end (gs.logged_gtids.ivs 1) ∧
            gs.owned_gtids.get_owner ⟨1, g⟩ = 0} (gs.get_automatic_gno 1))) := by
  let gs : Gtid_state :=
    ⟨⟨[Uuid.zero], [1]⟩, ⟨[[⟨1, 3⟩]], -1, none, Interval_memory.init.get_free_interval⟩, Gtid_set.empty, Owned_gtids.empty, 1⟩
  have hs : gs.logged_gtids.NF := by
    simp [gs, Gtid_set.NF, Normal, IntervalList.Sep, MAX_GNO]
  exact ⟨gs, rfl, hs, by decide, Gtid_state.get_automatic_gno_least hs 1⟩

/-! ## The functions of `Gtid_state` -/

namespace Gtid_state

/-- `Gtid_state::mark_gtid_executed`: the GTID is logged at once and becomes the
    session's `owned_gtid`. -/
def mark_gtid_executed (gs : Gtid_state) (thd : Thd) (gtid : Gtid) : Gtid_state × Thd :=
  ({ gs with logged_gtids := gs.logged_gtids._add_gtid gtid.sidno gtid.gno },
    { thd with owned_gtid := gtid })

/-- `Gtid_state::acquire_ownership`: thread `thread_id` owns the GTID in
    `owned_gtids`; with no `gtid_next_list` it is the session's `owned_gtid`. -/
def acquire_ownership (gs : Gtid_state) (thread_id : Nat) (thd : Thd) (gtid : Gtid) :
    Gtid_state × Thd :=
  ({ gs with owned_gtids := gs.owned_gtids.add_gtid_owner gtid thread_id },
    { thd with owned_gtid := gtid })

/-- `Gtid_state::remove_gtid_on_failure`: the session's GTID leaves `logged_gtids`, and
    its `owned_gtid.sidno` is reset. -/
def remove_gtid_on_failure (gs : Gtid_state) (thd : Thd) : Gtid_state × Thd :=
  if 0 < thd.owned_gtid.sidno then
    ({ gs with logged_gtids :=
        gs.logged_gtids._remove_gtid thd.owned_gtid.sidno thd.owned_gtid.gno },
      { thd with owned_gtid := { thd.owned_gtid with sidno := 0 } })
  else (gs, thd)

/-- `Gtid_state::update_on_flush`: the session's GTID is logged. Resetting
    `gtid_next` and waking waiters change nothing modelled here. -/
def update_on_flush (gs : Gtid_state) (thd : Thd) : Gtid_state :=
  if 0 < thd.owned_gtid.sidno then
    { gs with logged_gtids := gs.logged_gtids._add_gtid thd.owned_gtid.sidno thd.owned_gtid.gno }
  else gs

/-- `Gtid_state::update_owned_gtids_impl`: the session's GTID leaves `owned_gtids` and
    the session's `owned_gtid` is cleared. Its `is_commit` only decides whether
    waiters are woken, which changes no state, so it is left out. -/
def update_owned_gtids_impl (gs : Gtid_state) (thd : Thd) : Gtid_state × Thd :=
  (if 0 < thd.owned_gtid.sidno then
      { gs with owned_gtids := gs.owned_gtids.remove_gtid thd.owned_gtid }
    else gs,
    thd.clear_owned_gtids)

/-- `Gtid_state::update_on_commit`. -/
def update_on_commit (gs : Gtid_state) (thd : Thd) : Gtid_state × Thd :=
  gs.update_owned_gtids_impl thd

/-- `Gtid_state::update_on_rollback`. -/
def update_on_rollback (gs : Gtid_state) (thd : Thd) : Gtid_state × Thd :=
  gs.update_owned_gtids_impl thd

end Gtid_state

/-! ## `Group_cache::generate_automatic_gno` -/

/-- `enum_group_type`. -/
inductive enum_group_type where
  | AUTOMATIC_GROUP
  | GTID_GROUP
  | ANONYMOUS_GROUP
  | INVALID_GROUP
  | UNDEFINED_GROUP
deriving DecidableEq, Repr

open enum_group_type

/-- `Gtid_specification`: a cached group's type and GTID. -/
structure Gtid_specification where
  type : enum_group_type
  gtid : Gtid
deriving DecidableEq, Repr

/-- What `generate_automatic_gno` leaves: its status, the state, the session, and the
    specifications of the cached groups. -/
structure Generated where
  status : enum_return_status
  gtid_state : Gtid_state
  thd : Thd
  groups : List Gtid_specification

/-- A group in front of what the rest of the loop leaves. -/
def Generated.cons (spec : Gtid_specification) (r : Generated) : Generated :=
  { r with groups := spec :: r.groups }

/-- The loop of `generate_automatic_gno` over the cached groups, with its accumulators
    `automatic_type` and `automatic_gtid`: the first automatic group decides the type
    and, with GTIDs on (`gtid_mode > 1`), takes a GNO; every automatic group gets the
    same type and GTID. A GNO of `-1` returns an error with the groups as they are. -/
def generate_automatic_gno_loop (gtid_mode thread_id : Nat) :
    List Gtid_specification → enum_group_type → Gtid → Gtid_state → Thd → Generated
  | [], _, _, gs, thd => ⟨RETURN_STATUS_OK, gs, thd, []⟩
  | spec :: rest, automatic_type, automatic_gtid, gs, thd =>
    if spec.type = AUTOMATIC_GROUP then
      if automatic_type = INVALID_GROUP then
        if gtid_mode ≤ 1 then
          (generate_automatic_gno_loop gtid_mode thread_id rest ANONYMOUS_GROUP automatic_gtid
            gs thd).cons ⟨ANONYMOUS_GROUP, automatic_gtid⟩
        else
          let gtid : Gtid := ⟨gs.server_sidno, gs.get_automatic_gno gs.server_sidno⟩
          if gtid.gno = -1 then ⟨RETURN_STATUS_REPORTED_ERROR, gs, thd, spec :: rest⟩
          else
            -- "Log gtid into logged_gtid directly" under precommit
            let a := if thd.gtid_precommit then gs.mark_gtid_executed thd gtid
              else gs.acquire_ownership thread_id thd gtid
            (generate_automatic_gno_loop gtid_mode thread_id rest GTID_GROUP gtid a.1 a.2).cons
              ⟨GTID_GROUP, gtid⟩
      else
        (generate_automatic_gno_loop gtid_mode thread_id rest automatic_type automatic_gtid
          gs thd).cons ⟨automatic_type, automatic_gtid⟩
    else
      (generate_automatic_gno_loop gtid_mode thread_id rest automatic_type automatic_gtid
        gs thd).cons spec

/-- `Group_cache::generate_automatic_gno(thd)` for the session `thread_id`, over the
    groups of its cache. -/
def generate_automatic_gno (gtid_mode : Nat) (gs : Gtid_state) (thread_id : Nat) (thd : Thd)
    (groups : List Gtid_specification) : Generated :=
  generate_automatic_gno_loop gtid_mode thread_id groups INVALID_GROUP ⟨0, 0⟩ gs thd

/-! ## The binlog code around them -/

/-- The GTID steps of `MYSQL_BIN_LOG::write_cache` once the cache is written, or
    failed to be (`write_error`): without precommit the flush logs the GTID; on an
    error a precommitted GTID is taken out again. -/
def write_cache (gs : Gtid_state) (thd : Thd) (write_error : Bool) : Gtid_state × Thd :=
  if write_error then
    if thd.gtid_precommit then gs.remove_gtid_on_failure thd else (gs, thd)
  else if thd.gtid_precommit then (gs, thd)
  else (gs.update_on_flush thd, thd)

/-- The GTID steps of `MYSQL_BIN_LOG::finish_commit`: `update_on_commit` without
    precommit; with it, the flag is reset and the session's GTID cleared. -/
def finish_commit (gs : Gtid_state) (thd : Thd) : Gtid_state × Thd :=
  if thd.gtid_precommit then (gs, { thd.clear_owned_gtids with gtid_precommit := false })
  else gs.update_on_commit thd

/-! ## What one call can do -/

/-- A GTID `generate_automatic_gno` hands out: of the server's SIDNO, with a GNO in
    `[1, MAX_GNO)` that is not logged and has no owner. -/
structure Gtid_state.Fresh (gs : Gtid_state) (g : Gtid) : Prop where
  sidno : g.sidno = gs.server_sidno
  gno_pos : 1 ≤ g.gno
  gno_lt : g.gno < MAX_GNO
  not_logged : (g.sidno, g.gno) ∉ gs.logged_gtids.denote
  unowned : gs.owned_gtids.get_owner g = 0

/-- Everything a call for the session `t` can do to the state `gs` and to the session
    (`thd` before the call): the pair it returns is one of these. -/
inductive Effect (t : Nat) (gs : Gtid_state) (thd : Thd) : Gtid_state × Thd → Prop
  /-- Nothing changes but, perhaps, the flag. -/
  | keep (thd' : Thd) : thd'.owned_gtid = thd.owned_gtid → Effect t gs thd (gs, thd')
  /-- The session lets its GTID go. -/
  | drop (thd' : Thd) : thd'.owned_gtid.sidno = 0 → Effect t gs thd (gs, thd')
  /-- `update_on_flush` logs the session's GTID. -/
  | log : 0 < thd.owned_gtid.sidno → Effect t gs thd (gs.update_on_flush thd, thd)
  /-- `remove_gtid_on_failure` takes it out of `logged_gtids`. -/
  | unlog : 0 < thd.owned_gtid.sidno → Effect t gs thd (gs.remove_gtid_on_failure thd)
  /-- `update_owned_gtids_impl` drops its ownership. -/
  | release : 0 < thd.owned_gtid.sidno → Effect t gs thd (gs.update_owned_gtids_impl thd)
  /-- `mark_gtid_executed` of a fresh GTID. -/
  | mark (g : Gtid) : gs.Fresh g → Effect t gs thd (gs.mark_gtid_executed thd g)
  /-- `acquire_ownership` of a fresh GTID. -/
  | acquire (g : Gtid) : gs.Fresh g → Effect t gs thd (gs.acquire_ownership t thd g)

section Effects

variable {t : Nat} {gs : Gtid_state} {thd : Thd}

theorem effect_update_on_flush : Effect t gs thd (gs.update_on_flush thd, thd) := by
  by_cases h : 0 < thd.owned_gtid.sidno
  · exact .log h
  · have : gs.update_on_flush thd = gs := if_neg h
    rw [this]
    exact .keep thd rfl

theorem effect_remove_gtid_on_failure : Effect t gs thd (gs.remove_gtid_on_failure thd) := by
  by_cases h : 0 < thd.owned_gtid.sidno
  · exact .unlog h
  · have : gs.remove_gtid_on_failure thd = (gs, thd) := if_neg h
    rw [this]
    exact .keep thd rfl

theorem effect_update_owned_gtids_impl : Effect t gs thd (gs.update_owned_gtids_impl thd) := by
  by_cases h : 0 < thd.owned_gtid.sidno
  · exact .release h
  · have : gs.update_owned_gtids_impl thd = (gs, thd.clear_owned_gtids) := by
      simp only [Gtid_state.update_owned_gtids_impl, if_neg h]
    rw [this]
    exact .drop _ rfl

theorem effect_write_cache (write_error : Bool) : Effect t gs thd (write_cache gs thd write_error) := by
  unfold write_cache
  split
  · split
    · exact effect_remove_gtid_on_failure
    · exact .keep thd rfl
  · split
    · exact .keep thd rfl
    · exact effect_update_on_flush

theorem effect_finish_commit : Effect t gs thd (finish_commit gs thd) := by
  unfold finish_commit
  split
  · exact .drop _ rfl
  · exact effect_update_owned_gtids_impl

/-- Once the loop has its type, it changes neither the state nor the session. -/
theorem generate_automatic_gno_loop_typed (gtid_mode : Nat) :
    ∀ (groups : List Gtid_specification) (ty : enum_group_type) (g : Gtid) (gs : Gtid_state)
      (thd : Thd), ty ≠ INVALID_GROUP →
      (generate_automatic_gno_loop gtid_mode t groups ty g gs thd).gtid_state = gs ∧
        (generate_automatic_gno_loop gtid_mode t groups ty g gs thd).thd = thd
  | [], _, _, _, _, _ => ⟨rfl, rfl⟩
  | spec :: rest, ty, g, gs, thd, hty => by
    have ih := generate_automatic_gno_loop_typed gtid_mode rest ty g gs thd hty
    simp only [generate_automatic_gno_loop, if_neg hty]
    split <;> exact ih

/-- **`generate_automatic_gno` hands out at most one GTID, and a fresh one.** Induction
    on the groups: the groups before the first automatic one change nothing, and after
    it the type is decided. -/
theorem effect_generate_automatic_gno_loop (hs : gs.logged_gtids.NF) (gtid_mode : Nat) :
    ∀ (groups : List Gtid_specification) (g : Gtid),
      Effect t gs thd
        ((generate_automatic_gno_loop gtid_mode t groups INVALID_GROUP g gs thd).gtid_state,
          (generate_automatic_gno_loop gtid_mode t groups INVALID_GROUP g gs thd).thd)
  | [], _ => .keep thd rfl
  | spec :: rest, g => by
    simp only [generate_automatic_gno_loop, if_true]
    split
    · split
      · -- anonymous groups: no GTID
        obtain ⟨h₁, h₂⟩ := generate_automatic_gno_loop_typed (t := t) gtid_mode rest
          ANONYMOUS_GROUP g gs thd (by decide)
        simp only [Generated.cons, h₁, h₂]
        exact .keep thd rfl
      · split
        · exact .keep thd rfl
        · rename_i hgno
          rcases gs.get_automatic_gno_spec hs gs.server_sidno with h | ⟨hpos, hmax, hnot, hown⟩
          · exact absurd h hgno
          have hf : gs.Fresh ⟨gs.server_sidno, gs.get_automatic_gno gs.server_sidno⟩ :=
            ⟨rfl, hpos, hmax, hnot, hown⟩
          -- once the GNO is taken, the rest of the loop changes nothing
          have typed (a : Gtid_state × Thd) := generate_automatic_gno_loop_typed (t := t)
            gtid_mode rest GTID_GROUP ⟨gs.server_sidno, gs.get_automatic_gno gs.server_sidno⟩
            a.1 a.2 (by decide)
          split
          · simp only [Generated.cons, (typed (gs.mark_gtid_executed thd _)).1,
              (typed (gs.mark_gtid_executed thd _)).2]
            exact .mark _ hf
          · simp only [Generated.cons, (typed (gs.acquire_ownership t thd _)).1,
              (typed (gs.acquire_ownership t thd _)).2]
            exact .acquire _ hf
    · exact effect_generate_automatic_gno_loop hs gtid_mode rest g

end Effects

/-! ## The invariant of what sessions hold -/

/-- The invariant over the state `gs` and every session's `owned_gtid` (`o`, by thread
    id); a session holds its `owned_gtid` while the SIDNO is positive. -/
structure Holding (gs : Gtid_state) (o : Nat → Gtid) : Prop where
  nf : gs.logged_gtids.NF
  server_pos : 1 ≤ gs.server_sidno
  server_le : gs.server_sidno ≤ gs.logged_gtids.get_max_sidno
  /-- Thread id `0` is no session (`get_owner` returns it for "no owner"). -/
  zero : (o 0).sidno = 0
  /-- A held GTID is one `generate_automatic_gno` could hand out. -/
  bounds : ∀ u, 0 < (o u).sidno →
    (o u).sidno = gs.server_sidno ∧ 1 ≤ (o u).gno ∧ (o u).gno < MAX_GNO
  /-- A held GTID is logged (precommitted or flushed) or owned by its session. -/
  logged_or_owned : ∀ u, 0 < (o u).sidno →
    ((o u).sidno, (o u).gno) ∈ gs.logged_gtids.denote ∨ gs.owned_gtids.get_owner (o u) = u
  /-- An owned GTID is held by its owner only. -/
  owner_only : ∀ u g, 0 < gs.owned_gtids.get_owner g → o u = g → 0 < g.sidno →
    u = gs.owned_gtids.get_owner g
  /-- No two sessions hold one GTID. -/
  distinct : ∀ u v, o u = o v → 0 < (o u).sidno → u = v

/-- Session `u` holds `g`: it owns `g` in `owned_gtids`, or `g` is its `owned_gtid`. -/
def Holds (gs : Gtid_state) (o : Nat → Gtid) (u : Nat) (g : Gtid) : Prop :=
  0 < u ∧ (gs.owned_gtids.get_owner g = u ∨ (o u = g ∧ 0 < g.sidno))

namespace Holding

variable {gs : Gtid_state} {o : Nat → Gtid} {t : Nat}

/-- No session holds a fresh GTID. -/
theorem ne_fresh (h : Holding gs o) {g : Gtid} (hf : gs.Fresh g) {u : Nat}
    (hu : 0 < (o u).sidno) : o u ≠ g := by
  rintro rfl
  rcases h.logged_or_owned u hu with hmem | hown
  · exact hf.not_logged hmem
  · have hu0 : u = 0 := by rw [← hown, hf.unowned]
    subst hu0
    rw [h.zero] at hu
    exact absurd hu (lt_irrefl 0)

theorem not_holds_fresh (h : Holding gs o) {g : Gtid} (hf : gs.Fresh g) (u : Nat) :
    ¬ Holds gs o u g := by
  rintro ⟨hu, hown | ⟨rfl, hlive⟩⟩
  · rw [hf.unowned] at hown
    exact absurd hown.symm (ne_of_gt hu)
  · exact h.ne_fresh hf hlive rfl

/-- **No two sessions hold one GTID.** -/
theorem holds_unique (h : Holding gs o) {u v : Nat} {g : Gtid} (hu : Holds gs o u g)
    (hv : Holds gs o v g) : u = v := by
  obtain ⟨hu0, hou | ⟨rfl, hlive⟩⟩ := hu <;> obtain ⟨hv0, hov | ⟨hvg, hlive'⟩⟩ := hv
  · exact hou.symm.trans hov
  · rw [h.owner_only v g (by omega) hvg hlive', hou]
  · rw [h.owner_only u (o u) (by omega) rfl hlive, hov]
  · exact h.distinct u v hvg.symm hlive

/-- The session lets its GTID go. -/
theorem drop (h : Holding gs o) (ht : 0 < t) {g : Gtid} (hg : g.sidno = 0) :
    Holding gs (Function.update o t g) := by
  have hne : ∀ u, 0 < (Function.update o t g u).sidno → u ≠ t := by
    rintro u hu rfl
    simp [hg] at hu
  refine ⟨h.nf, h.server_pos, h.server_le, ?_, ?_, ?_, ?_, ?_⟩
  · simpa [Function.update_apply, Nat.ne_of_lt ht] using h.zero
  · intro u hu
    simpa [Function.update_apply, hne u hu] using h.bounds u (by simpa [hne u hu] using hu)
  · intro u hu
    simpa [Function.update_apply, hne u hu] using h.logged_or_owned u (by simpa [hne u hu] using hu)
  · intro u g' hown hug hlive
    by_cases hut : u = t
    · subst hut
      simp only [Function.update_self] at hug
      subst hug
      omega
    · rw [Function.update_of_ne hut] at hug
      exact h.owner_only u g' hown hug hlive
  · intro u v huv hlive
    have hu := hne u hlive
    have hv := hne v (by rwa [← huv])
    rw [Function.update_of_ne hu, Function.update_of_ne hv] at huv
    rw [Function.update_of_ne hu] at hlive
    exact h.distinct u v huv hlive

/-- `logged_gtids` grows, in normal form. -/
theorem grow_logged (h : Holding gs o) {L : Gtid_set} (hL : L.NF)
    (hmax : L.get_max_sidno = gs.logged_gtids.get_max_sidno)
    (hsub : gs.logged_gtids.denote ⊆ L.denote) : Holding { gs with logged_gtids := L } o := by
  refine ⟨hL, h.server_pos, by rw [hmax]; exact h.server_le, h.zero, h.bounds, ?_,
    h.owner_only, h.distinct⟩
  intro u hu
  exact (h.logged_or_owned u hu).imp (fun hm => hsub hm) id

/-- `logged_gtids` loses a GTID no session holds. -/
theorem shrink_logged (h : Holding gs o) {L : Gtid_set} (hL : L.NF)
    (hmax : L.get_max_sidno = gs.logged_gtids.get_max_sidno) {p : Nat × Int}
    (hden : L.denote = gs.logged_gtids.denote \ {p})
    (hp : ∀ u, 0 < (o u).sidno → ((o u).sidno, (o u).gno) ≠ p) :
    Holding { gs with logged_gtids := L } o := by
  refine ⟨hL, h.server_pos, by rw [hmax]; exact h.server_le, h.zero, h.bounds, ?_,
    h.owner_only, h.distinct⟩
  intro u hu
  rw [hden]
  exact (h.logged_or_owned u hu).imp (fun hm => ⟨hm, hp u hu⟩) id

/-- The ownership of a GTID no session holds goes. -/
theorem release_owner (h : Holding gs o) {g : Gtid} (hg : ∀ u, 0 < (o u).sidno → o u ≠ g) :
    Holding { gs with owned_gtids := gs.owned_gtids.remove_gtid g } o := by
  refine ⟨h.nf, h.server_pos, h.server_le, h.zero, h.bounds, ?_, ?_, h.distinct⟩
  · intro u hu
    simpa [hg u hu] using h.logged_or_owned u hu
  · intro u g' hown hug hlive
    by_cases hgg : g' = g
    · simp [hgg] at hown
    · simp only [Owned_gtids.get_owner_remove_gtid, hgg, if_false] at hown ⊢
      exact h.owner_only u g' hown hug hlive

/-- Session `t` comes to own a GTID no session holds. -/
theorem own (h : Holding gs o) {g : Gtid} (hg : ∀ u, 0 < (o u).sidno → o u ≠ g) :
    Holding { gs with owned_gtids := gs.owned_gtids.add_gtid_owner g t } o := by
  refine ⟨h.nf, h.server_pos, h.server_le, h.zero, h.bounds, ?_, ?_, h.distinct⟩
  · intro u hu
    simpa [hg u hu] using h.logged_or_owned u hu
  · intro u g' hown hug hlive
    by_cases hgg : g' = g
    · exact absurd (hug.trans hgg) (hg u (hug ▸ hlive))
    · simp only [Owned_gtids.get_owner_add_gtid_owner, hgg, if_false] at hown ⊢
      exact h.owner_only u g' hown hug hlive

/-- Session `t` comes to hold a GTID no other session holds, logged or owned by `t`. -/
theorem assign (h : Holding gs o) (ht : 0 < t) {g : Gtid}
    (hb : g.sidno = gs.server_sidno ∧ 1 ≤ g.gno ∧ g.gno < MAX_GNO)
    (hg : ∀ u, 0 < (o u).sidno → o u ≠ g)
    (hheld : (g.sidno, g.gno) ∈ gs.logged_gtids.denote ∨ gs.owned_gtids.get_owner g = t)
    (howner : gs.owned_gtids.get_owner g = 0 ∨ gs.owned_gtids.get_owner g = t) :
    Holding gs (Function.update o t g) := by
  refine ⟨h.nf, h.server_pos, h.server_le, ?_, ?_, ?_, ?_, ?_⟩
  · rw [Function.update_of_ne (Nat.ne_of_lt ht)]
    exact h.zero
  · intro u hu
    by_cases hut : u = t
    · subst hut
      simpa using hb
    · rw [Function.update_of_ne hut] at hu ⊢
      exact h.bounds u hu
  · intro u hu
    by_cases hut : u = t
    · subst hut
      simpa using hheld
    · rw [Function.update_of_ne hut] at hu ⊢
      exact h.logged_or_owned u hu
  · intro u g' hown hug hlive
    by_cases hut : u = t
    · subst hut
      simp only [Function.update_self] at hug
      subst hug
      omega
    · rw [Function.update_of_ne hut] at hug
      exact h.owner_only u g' hown hug hlive
  · intro u v huv hlive
    by_cases hut : u = t <;> by_cases hvt : v = t
    · rw [hut, hvt]
    · subst hut
      rw [Function.update_self, Function.update_of_ne hvt] at huv
      exact absurd huv.symm (hg v (by rw [← huv]; simpa using hlive))
    · subst hvt
      rw [Function.update_self, Function.update_of_ne hut] at huv
      rw [Function.update_of_ne hut] at hlive
      exact absurd huv (hg u hlive)
    · rw [Function.update_of_ne hut, Function.update_of_ne hvt] at huv
      rw [Function.update_of_ne hut] at hlive
      exact h.distinct u v huv hlive

/-- After session `t` let its GTID go, no session holds it. -/
theorem ne_released (h : Holding gs o) (hlive : 0 < (o t).sidno) {g : Gtid} (hg : g.sidno = 0)
    (u : Nat) (hu : 0 < (Function.update o t g u).sidno) : Function.update o t g u ≠ o t := by
  by_cases hut : u = t
  · subst hut
    simp [hg] at hu
  · rw [Function.update_of_ne hut] at hu ⊢
    intro heq
    exact hut (h.distinct u t heq hu)

/-- **Every effect keeps the invariant.** -/
theorem effect (h : Holding gs o) (ht : 0 < t) {thd : Thd} (hthd : thd.owned_gtid = o t)
    {r : Gtid_state × Thd} (he : Effect t gs thd r) :
    Holding r.1 (Function.update o t r.2.owned_gtid) := by
  cases he with
  | keep thd' hkeep =>
    rw [hkeep, hthd, Function.update_eq_self]
    exact h
  | drop thd' hdrop => exact h.drop ht hdrop
  | log hlive =>
    rw [hthd, Function.update_eq_self]
    rw [hthd] at hlive
    obtain ⟨hsid, hg₁, hg₂⟩ := h.bounds t hlive
    obtain ⟨hnf, hmax, hden⟩ := @Gtid_set._add_gtid_spec gs.logged_gtids (o t).sidno (o t).gno
      h.nf hlive (by rw [hsid]; exact h.server_le) hg₁ hg₂
    have hflush : gs.update_on_flush thd =
        { gs with logged_gtids := gs.logged_gtids._add_gtid (o t).sidno (o t).gno } := by
      simp only [Gtid_state.update_on_flush, hthd, if_pos hlive]
    rw [hflush]
    exact h.grow_logged hnf hmax (by rw [hden]; exact Set.subset_insert _ _)
  | unlog hlive =>
    rw [hthd] at hlive
    simp only [Gtid_state.remove_gtid_on_failure, hthd, if_pos hlive]
    obtain ⟨hnf, hmax, hden⟩ := @Gtid_set._remove_gtid_spec gs.logged_gtids (o t).sidno
      (o t).gno h.nf hlive
    have hd := h.drop ht (g := { o t with sidno := 0 }) rfl
    refine hd.shrink_logged hnf hmax hden fun u hu heq => ?_
    exact h.ne_released hlive rfl u hu (Gtid.eq_of_pair_eq heq)
  | release hlive =>
    rw [hthd] at hlive
    simp only [Gtid_state.update_owned_gtids_impl, Thd.clear_owned_gtids, hthd, if_pos hlive]
    exact (h.drop ht (g := { o t with sidno := 0 }) rfl).release_owner
      (h.ne_released hlive rfl)
  | mark g hf =>
    simp only [Gtid_state.mark_gtid_executed]
    obtain ⟨hnf, hmax, hden⟩ := @Gtid_set._add_gtid_spec gs.logged_gtids g.sidno g.gno h.nf
      (by rw [hf.sidno]; exact h.server_pos) (by rw [hf.sidno]; exact h.server_le)
      hf.gno_pos hf.gno_lt
    have hg := h.grow_logged hnf hmax (by rw [hden]; exact Set.subset_insert _ _)
    exact hg.assign ht ⟨hf.sidno, hf.gno_pos, hf.gno_lt⟩ (fun u hu => h.ne_fresh hf hu)
      (Or.inl (by rw [hden]; exact Set.mem_insert _ _)) (Or.inl hf.unowned)
  | acquire g hf =>
    simp only [Gtid_state.acquire_ownership]
    have hg := h.own (t := t) (fun u hu => h.ne_fresh hf hu)
    exact hg.assign ht ⟨hf.sidno, hf.gno_pos, hf.gno_lt⟩ (fun u hu => h.ne_fresh hf hu)
      (Or.inr (by simp)) (Or.inr (by simp))

end Holding

section NewHolds

variable {gs : Gtid_state} {o : Nat → Gtid} {t : Nat}

/-- A call takes GTIDs away from sessions, never gives them one: what a session holds
    afterwards it held before. -/
theorem holds_of_shrink {gs' : Gtid_state} {o' : Nat → Gtid}
    (hO : ∀ g, gs'.owned_gtids.get_owner g = 0 ∨
      gs'.owned_gtids.get_owner g = gs.owned_gtids.get_owner g)
    (ho : ∀ u, 0 < (o' u).sidno → o' u = o u) {u : Nat} {g : Gtid} (h : Holds gs' o' u g) :
    Holds gs o u g := by
  obtain ⟨hu, hown | ⟨rfl, hlive⟩⟩ := h
  · rcases hO g with h0 | heq
    · omega
    · exact ⟨hu, Or.inl (heq ▸ hown)⟩
  · exact ⟨hu, Or.inr ⟨(ho u hlive).symm, hlive⟩⟩

/-- A call gives session `t` the GTID `g` and changes no other ownership: what a session
    holds afterwards it held before, or it is `g`. -/
theorem holds_of_assign {gs' : Gtid_state} {g : Gtid} {u : Nat} {g' : Gtid}
    (h : Holds gs' (Function.update o t g) u g')
    (hO : ∀ g', g' ≠ g → gs'.owned_gtids.get_owner g' = gs.owned_gtids.get_owner g') :
    Holds gs o u g' ∨ g' = g := by
  by_cases hg : g' = g
  · exact Or.inr hg
  · refine Or.inl ?_
    obtain ⟨hu, hown | ⟨hug, hlive⟩⟩ := h
    · exact ⟨hu, Or.inl (hO g' hg ▸ hown)⟩
    · by_cases hut : u = t
      · subst hut
        simp only [Function.update_self] at hug
        exact absurd hug.symm hg
      · rw [Function.update_of_ne hut] at hug
        exact ⟨hu, Or.inr ⟨hug, hlive⟩⟩

/-- **A session only comes to hold a fresh GTID.** What a session holds after an effect
    and did not hold before is the fresh GTID of a `mark` or an `acquire`. -/
theorem Effect.holds_fresh {thd : Thd} {r : Gtid_state × Thd} (he : Effect t gs thd r)
    (hthd : thd.owned_gtid = o t) {u : Nat} {g : Gtid}
    (h' : Holds r.1 (Function.update o t r.2.owned_gtid) u g) (hn : ¬ Holds gs o u g) :
    gs.Fresh g := by
  -- the effects that only take GTIDs away
  have shrink : ∀ {gs' : Gtid_state} {g₀ : Gtid}, Holds gs' (Function.update o t g₀) u g →
      gs'.owned_gtids = gs.owned_gtids ∨ gs'.owned_gtids = gs.owned_gtids.remove_gtid (o t) →
      (g₀ = o t ∨ g₀.sidno = 0) → gs.Fresh g := by
    intro gs' g₀ hh hO hg₀
    refine absurd (holds_of_shrink (fun g => ?_) (fun v hv => ?_) hh) hn
    · rcases hO with hO | hO <;> rw [hO]
      · exact Or.inr rfl
      · by_cases hg : g = o t <;> simp [hg]
    · by_cases hvt : v = t
      · subst hvt
        rcases hg₀ with rfl | h0
        · simp
        · simp [h0] at hv
      · exact Function.update_of_ne hvt _ _
  cases he with
  | keep thd' hkeep => exact shrink h' (Or.inl rfl) (Or.inl (hkeep.trans hthd))
  | drop thd' hdrop => exact shrink h' (Or.inl rfl) (Or.inr hdrop)
  | log hlive =>
    refine shrink h' (Or.inl ?_) (Or.inl hthd)
    simp only [Gtid_state.update_on_flush, if_pos hlive]
  | unlog hlive =>
    have e : gs.remove_gtid_on_failure thd =
        ({ gs with logged_gtids :=
            gs.logged_gtids._remove_gtid thd.owned_gtid.sidno thd.owned_gtid.gno },
          { thd with owned_gtid := { thd.owned_gtid with sidno := 0 } }) := if_pos hlive
    rw [e] at h'
    exact shrink h' (Or.inl rfl) (Or.inr rfl)
  | release hlive =>
    have e : gs.update_owned_gtids_impl thd =
        ({ gs with owned_gtids := gs.owned_gtids.remove_gtid thd.owned_gtid },
          thd.clear_owned_gtids) := by
      simp only [Gtid_state.update_owned_gtids_impl, if_pos hlive]
    rw [e] at h'
    exact shrink h' (Or.inr (by rw [hthd])) (Or.inr rfl)
  | mark g₁ hf =>
    rcases @holds_of_assign gs o t _ _ _ _ h' (fun _ _ => rfl) with hold | rfl
    · exact absurd hold hn
    · exact hf
  | acquire g₁ hf =>
    rcases @holds_of_assign gs o t _ _ _ _ h'
        (fun g' hg => by
          simp only [Gtid_state.acquire_ownership, Owned_gtids.get_owner_add_gtid_owner] at hg ⊢
          rw [if_neg hg]) with hold | rfl
    · exact absurd hold hn
    · exact hf

end NewHolds

/-! ## The server -/

/-- The shared state, `gtid_mode`, and every session by its thread id. -/
structure Server where
  gtid_state : Gtid_state
  gtid_mode : Nat
  thd : Nat → Thd

namespace Server

/-- Session `u`'s `owned_gtid`. -/
def owned (σ : Server) (u : Nat) : Gtid := (σ.thd u).owned_gtid

/-- Session `u` holds `g`. -/
def holds (σ : Server) (u : Nat) (g : Gtid) : Prop := Holds σ.gtid_state σ.owned u g

/-- The server after a call for session `t` returned the state and the session. -/
def with_thd (σ : Server) (t : Nat) (r : Gtid_state × Thd) : Server :=
  { σ with gtid_state := r.1, thd := Function.update σ.thd t r.2 }

theorem owned_with_thd (σ : Server) (t : Nat) (r : Gtid_state × Thd) :
    (σ.with_thd t r).owned = Function.update σ.owned t r.2.owned_gtid := by
  funext u
  by_cases hu : u = t
  · subst hu
    simp [owned, with_thd]
  · simp [owned, with_thd, Function.update_of_ne hu]

/-- One call for the session with thread id `t`. -/
inductive Op where
  | generate_automatic_gno (t : Nat) (groups : List Gtid_specification)
  | update_on_flush (t : Nat)
  | remove_gtid_on_failure (t : Nat)
  | update_on_commit (t : Nat)
  | update_on_rollback (t : Nat)
  | clear_owned_gtids (t : Nat)
  | set_gtid_precommit (t : Nat) (gtid_precommit : Bool)
  | write_cache (t : Nat) (write_error : Bool)
  | finish_commit (t : Nat)

/-- The session that makes the call. -/
def Op.thread : Op → Nat
  | .generate_automatic_gno t _ | .update_on_flush t | .remove_gtid_on_failure t
  | .update_on_commit t | .update_on_rollback t | .clear_owned_gtids t
  | .set_gtid_precommit t _ | .write_cache t _ | .finish_commit t => t

/-- What the call returns for the state and its session. `set_gtid_precommit` is the
    assignment in `MYSQL_BIN_LOG::ordered_commit`, with its value left free. -/
def Op.call : Op → Server → Gtid_state × Thd
  | .generate_automatic_gno t groups, σ =>
    let r := AliSql.Gtid.generate_automatic_gno σ.gtid_mode σ.gtid_state t (σ.thd t) groups
    (r.gtid_state, r.thd)
  | .update_on_flush t, σ => (σ.gtid_state.update_on_flush (σ.thd t), σ.thd t)
  | .remove_gtid_on_failure t, σ => σ.gtid_state.remove_gtid_on_failure (σ.thd t)
  | .update_on_commit t, σ => σ.gtid_state.update_on_commit (σ.thd t)
  | .update_on_rollback t, σ => σ.gtid_state.update_on_rollback (σ.thd t)
  | .clear_owned_gtids t, σ => (σ.gtid_state, (σ.thd t).clear_owned_gtids)
  | .set_gtid_precommit t b, σ => (σ.gtid_state, { σ.thd t with gtid_precommit := b })
  | .write_cache t write_error, σ => AliSql.Gtid.write_cache σ.gtid_state (σ.thd t) write_error
  | .finish_commit t, σ => AliSql.Gtid.finish_commit σ.gtid_state (σ.thd t)

/-- One step: the call, atomic. -/
def Op.step (op : Op) (σ : Server) : Server := σ.with_thd op.thread (op.call σ)

/-- The states reachable from `σ₀` by calls of sessions (thread ids start at 1). -/
inductive Reachable (σ₀ : Server) : Server → Prop
  | init : Reachable σ₀ σ₀
  | step {σ : Server} (op : Op) : Reachable σ₀ σ → 0 < op.thread → Reachable σ₀ (op.step σ)

/-- A server that starts: `logged_gtids` in normal form and with the server's SIDNO,
    nothing owned, no session holding a GTID. -/
structure Init (σ : Server) : Prop where
  nf : σ.gtid_state.logged_gtids.NF
  server_pos : 1 ≤ σ.gtid_state.server_sidno
  server_le : σ.gtid_state.server_sidno ≤ σ.gtid_state.logged_gtids.get_max_sidno
  unowned : ∀ g, σ.gtid_state.owned_gtids.get_owner g = 0
  idle : ∀ u, (σ.owned u).sidno = 0

/-- The invariant of the server. -/
def Inv (σ : Server) : Prop := Holding σ.gtid_state σ.owned

theorem Init.inv {σ : Server} (h : σ.Init) : σ.Inv :=
  ⟨h.nf, h.server_pos, h.server_le, h.idle 0, fun u hu => absurd (h.idle u) (Nat.ne_of_gt hu),
    fun u hu => absurd (h.idle u) (Nat.ne_of_gt hu), fun _ g hown => by simp [h.unowned g] at hown,
    fun u _ _ hu => absurd (h.idle u) (Nat.ne_of_gt hu)⟩

/-- Every call is one of the effects. -/
theorem Op.effect (op : Op) {σ : Server} (hs : σ.gtid_state.logged_gtids.NF) :
    Effect op.thread σ.gtid_state (σ.thd op.thread) (op.call σ) := by
  cases op <;> simp only [Op.thread, Op.call]
  case generate_automatic_gno t groups =>
    exact effect_generate_automatic_gno_loop hs σ.gtid_mode groups ⟨0, 0⟩
  case update_on_flush => exact effect_update_on_flush
  case remove_gtid_on_failure => exact effect_remove_gtid_on_failure
  case update_on_commit => exact effect_update_owned_gtids_impl
  case update_on_rollback => exact effect_update_owned_gtids_impl
  case clear_owned_gtids => exact .drop _ rfl
  case set_gtid_precommit => exact .keep _ rfl
  case write_cache t write_error => exact effect_write_cache write_error
  case finish_commit => exact effect_finish_commit

theorem Inv.step {σ : Server} (h : σ.Inv) (op : Op) (ht : 0 < op.thread) : (op.step σ).Inv := by
  unfold Inv Op.step
  rw [owned_with_thd]
  exact h.effect ht rfl (op.effect h.nf)

theorem Reachable.inv {σ₀ σ : Server} (h₀ : σ₀.Init) (h : Reachable σ₀ σ) : σ.Inv := by
  induction h with
  | init => exact h₀.inv
  | step op _ ht ih => exact ih.step op ht

/-- The calls of a list, one after another. -/
def run (ops : List Op) (σ : Server) : Server := ops.foldl (fun σ op => op.step σ) σ

theorem Reachable.run {σ₀ : Server} :
    ∀ {ops : List Op} {σ : Server}, (∀ op ∈ ops, 0 < op.thread) → Reachable σ₀ σ →
      Reachable σ₀ (Server.run ops σ)
  | [], _, _, h => h
  | op :: ops, _, hops, h => by
    have hrest : ∀ op' ∈ ops, 0 < op'.thread := fun op' hop' =>
      hops op' (List.mem_cons_of_mem _ hop')
    exact @Reachable.run σ₀ ops _ hrest (h.step op (hops op List.mem_cons_self))

end Server

/-- **No GTID is handed out twice.** On every state a server reaches from its start,
    by any interleaving of calls of sessions, on either path of `gtid_precommit` and
    with any failures: no two sessions hold the same GTID (owned in `owned_gtids`, or
    as their `owned_gtid`), and any call that makes a session hold a GTID it did not
    hold gives it one that was not in `logged_gtids` and that no session held. -/
theorem no_gtid_twice {σ₀ σ : Server} (h₀ : σ₀.Init) (hr : Server.Reachable σ₀ σ) :
    (∀ t u g, σ.holds t g → σ.holds u g → t = u) ∧
      ∀ op : Server.Op, 0 < op.thread → ∀ t g, (op.step σ).holds t g → ¬ σ.holds t g →
        (g.sidno, g.gno) ∉ σ.gtid_state.logged_gtids.denote ∧ ∀ u, ¬ σ.holds u g := by
  have hinv := hr.inv h₀
  refine ⟨fun t u g ht hu => hinv.holds_unique ht hu, fun op hop t g h' hn => ?_⟩
  have hf : σ.gtid_state.Fresh g := by
    unfold Server.holds Server.Op.step at h'
    rw [Server.owned_with_thd] at h'
    exact (op.effect hinv.nf).holds_fresh rfl h' hn
  exact ⟨hf.not_logged, hinv.not_holds_fresh hf⟩

/-- A server with one SID and nothing logged or owned, GTIDs on. -/
def one_sid_server : Server :=
  ⟨⟨⟨[Uuid.zero], [1]⟩, ⟨[[]], -1, none, Interval_memory.init⟩, Gtid_set.empty, Owned_gtids.empty, 1⟩, 2,
    fun _ => ⟨⟨0, 0⟩, false⟩⟩

/-- Two sessions commit at once: session 1 precommits and its binlog write fails,
    session 2 owns its GTID and flushes it. -/
def two_sessions : List Server.Op :=
  [.set_gtid_precommit 1 true, .generate_automatic_gno 1 [⟨AUTOMATIC_GROUP, ⟨0, 0⟩⟩],
    .generate_automatic_gno 2 [⟨AUTOMATIC_GROUP, ⟨0, 0⟩⟩], .write_cache 1 true,
    .generate_automatic_gno 1 [⟨AUTOMATIC_GROUP, ⟨0, 0⟩⟩], .write_cache 2 false,
    .finish_commit 2]

theorem one_sid_server_init : one_sid_server.Init :=
  ⟨by simp [one_sid_server, Gtid_set.NF], by decide, by decide, fun _ => rfl, fun _ => rfl⟩

theorem no_gtid_twice_two_sessions :
    one_sid_server.Init ∧ Server.Reachable one_sid_server (Server.run two_sessions one_sid_server) ∧
      ((∀ t u g, (Server.run two_sessions one_sid_server).holds t g →
          (Server.run two_sessions one_sid_server).holds u g → t = u) ∧
        ∀ op : Server.Op, 0 < op.thread → ∀ t g,
          (op.step (Server.run two_sessions one_sid_server)).holds t g →
          ¬ (Server.run two_sessions one_sid_server).holds t g →
          (g.sidno, g.gno) ∉ (Server.run two_sessions one_sid_server).gtid_state.logged_gtids.denote ∧
            ∀ u, ¬ (Server.run two_sessions one_sid_server).holds u g) :=
  have hr := Server.Reachable.run (by decide) Server.Reachable.init
  ⟨one_sid_server_init, hr, no_gtid_twice one_sid_server_init hr⟩

/-! ## `add_executed_gtid_set` -/

namespace Gtid_state

/-- `Gtid_state::add_executed_gtids`: the text is added to `logged_gtids`, over the
    shared map. -/
def add_executed_gtids (gs : Gtid_state) (text : List Char) : enum_return_status × Gtid_state :=
  let r := gs.logged_gtids.add_gtid_text gs.sid_map text false
  (r.status, { gs with sid_map := r.sid_map, logged_gtids := r.set })

/-- `Gtid_state::remove_executed_gtids`. -/
def remove_executed_gtids (gs : Gtid_state) (text : List Char) :
    enum_return_status × Gtid_state :=
  let r := gs.logged_gtids.remove_gtid_text gs.sid_map text
  (r.1, { gs with sid_map := r.2.1, logged_gtids := r.2.2 })

end Gtid_state

/-- `add_executed_gtid_set(thd, set)`, `true` on an error. `check_global_access` is what
    the privilege check for `SUPER_ACL` returns (`true` when it is missing),
    `binlog_open` whether the binary log is open. The statement's own `write_bin_log`,
    `MYSQL_BIN_LOG::commit` and `rotate_and_purge` are not modelled: `binlog` stands for
    them, returning whether one of them failed and the state they leave. The status of
    the rollback is not looked at, as in the source. -/
def add_executed_gtid_set (gs : Gtid_state) (check_global_access : Bool) (gtid_mode : Nat)
    (binlog_open : Bool) (binlog : Gtid_state → Bool × Gtid_state) (set : List Char) :
    Bool × Gtid_state :=
  if check_global_access then (true, gs)
  else if gtid_mode = 0 then (true, gs)
  else
    let added := gs.add_executed_gtids set
    if added.1 ≠ RETURN_STATUS_OK then (true, added.2)
    else if !binlog_open then (true, added.2)
    else
      let written := binlog added.2
      if written.1 then (true, (written.2.remove_executed_gtids set).2) else (false, written.2)

/-- **A failed `add_executed_gtid_set` removes the whole text.** From `logged_gtids` in
    normal form over a well-formed map, with a text that parses: when the binlog write,
    commit or rotation fails and leaves the state as it found it, the call reports an
    error and `logged_gtids` ends as `L \ S`, not `L`. It is `L` again exactly when the
    text names no GTID of `L`, and `lost_gtids`, unchanged, stays inside it exactly when
    the text names none of them. -/
theorem add_executed_gtid_set_rollback {gs : Gtid_state} (hm : gs.sid_map.WF)
    (hs : gs.logged_gtids.NF) (hfit : gs.logged_gtids.get_max_sidno ≤ gs.sid_map.get_max_sidno)
    {set : List Char} (hparse : (read_text gs.sid_map set false).status = RETURN_STATUS_OK)
    {gtid_mode : Nat} (hmode : gtid_mode ≠ 0) {binlog : Gtid_state → Bool × Gtid_state}
    (hfail : binlog (gs.add_executed_gtids set).2 = (true, (gs.add_executed_gtids set).2)) :
    let r := add_executed_gtid_set gs false gtid_mode true binlog set
    let S := (read_text gs.sid_map set false).denote
    r.1 = true ∧ r.2.logged_gtids.denote = gs.logged_gtids.denote \ S ∧
      r.2.lost_gtids = gs.lost_gtids ∧
      (r.2.logged_gtids.denote = gs.logged_gtids.denote ↔ Disjoint S gs.logged_gtids.denote) ∧
      (gs.lost_gtids.denote ⊆ gs.logged_gtids.denote →
        (gs.lost_gtids.denote ⊆ r.2.logged_gtids.denote ↔ Disjoint gs.lost_gtids.denote S)) := by
  intro r S
  -- the addition adds what the text reads, over the map the reading builds
  have ha := add_gtid_text_spec hs hfit set false
  have hadd : (gs.add_executed_gtids set).1 = RETURN_STATUS_OK := ha.status.trans hparse
  have hr : r = (true, ((gs.add_executed_gtids set).2.remove_executed_gtids set).2) := by
    simp only [r, add_executed_gtid_set, hmode, hadd, hfail]
    rfl
  -- the rollback reads the text again over that map, and reads the same
  have hagain : read_text (gs.add_executed_gtids set).2.sid_map set false =
      read_text gs.sid_map set false := by
    change read_text (gs.logged_gtids.add_gtid_text gs.sid_map set false).sid_map set false = _
    rw [ha.sid_map]
    exact read_text_again hm set false
  obtain ⟨-, -, -, -, hden⟩ := remove_gtid_text_spec ha.nf (gs.add_executed_gtids set).2.sid_map set
  have hD : r.2.logged_gtids.denote = gs.logged_gtids.denote \ S := by
    rw [hr]
    change ((gs.logged_gtids.add_gtid_text gs.sid_map set false).set.remove_gtid_text
      (gs.add_executed_gtids set).2.sid_map set).2.2.denote = _
    rw [hden, hagain, if_pos hparse, ha.denote]
    exact Set.union_sdiff_right
  refine ⟨by rw [hr], hD, by rw [hr]; rfl, by rw [hD]; exact sdiff_eq_self_iff_disjoint, ?_⟩
  intro hsub
  rw [hD, Set.subset_sdiff]
  exact and_iff_right hsub

/-- `uuid0:1-2` logged and lost, over a map with the one SID. -/
def overlap_state : Gtid_state :=
  ⟨⟨[Uuid.zero], [1]⟩, ⟨[[⟨1, 3⟩]], -1, none, Interval_memory.init.get_free_interval⟩, ⟨[[⟨1, 3⟩]], -1, none, Interval_memory.init.get_free_interval⟩, Owned_gtids.empty, 1⟩

/-- The text `uuid0:1-4`, which names all of `overlap_state`'s GTIDs and two more. -/
def overlap_text : List Char := "00000000-0000-0000-0000-000000000000:1-4".toList

theorem add_executed_gtid_set_rollback_overlap :
    (overlap_state.sid_map.WF ∧ overlap_state.logged_gtids.NF ∧
      overlap_state.logged_gtids.get_max_sidno ≤ overlap_state.sid_map.get_max_sidno ∧
      (read_text overlap_state.sid_map overlap_text false).status = RETURN_STATUS_OK ∧
      (2 : Nat) ≠ 0 ∧
      (fun gs : Gtid_state => (true, gs)) (overlap_state.add_executed_gtids overlap_text).2 =
        (true, (overlap_state.add_executed_gtids overlap_text).2)) ∧
    let r := add_executed_gtid_set overlap_state false 2 true (fun gs => (true, gs)) overlap_text
    let S := (read_text overlap_state.sid_map overlap_text false).denote
    r.1 = true ∧ r.2.logged_gtids.denote = overlap_state.logged_gtids.denote \ S ∧
      r.2.lost_gtids = overlap_state.lost_gtids ∧
      (r.2.logged_gtids.denote = overlap_state.logged_gtids.denote ↔
        Disjoint S overlap_state.logged_gtids.denote) ∧
      (overlap_state.lost_gtids.denote ⊆ overlap_state.logged_gtids.denote →
        (overlap_state.lost_gtids.denote ⊆ r.2.logged_gtids.denote ↔
          Disjoint overlap_state.lost_gtids.denote S)) :=
  have hm : overlap_state.sid_map.WF := ⟨by decide, by decide⟩
  have hs : overlap_state.logged_gtids.NF := by
    simp [overlap_state, Gtid_set.NF, Normal, IntervalList.Sep, MAX_GNO]
  have hfit : overlap_state.logged_gtids.get_max_sidno ≤ overlap_state.sid_map.get_max_sidno := by
    decide
  have hparse : (read_text overlap_state.sid_map overlap_text false).status = RETURN_STATUS_OK := by
    decide
  ⟨⟨hm, hs, hfit, hparse, by decide, rfl⟩,
    add_executed_gtid_set_rollback hm hs hfit hparse (by decide) rfl⟩

/-- **Rolling back removes GTIDs that were logged before.** With `uuid0:1-2` logged and
    lost, a failed `SET EXECUTED_GTID_SET 'uuid0:1-4'` leaves `logged_gtids` empty:
    neither equal to what it was nor holding `lost_gtids`. -/
theorem add_executed_gtid_set_overlap :
    (read_text overlap_state.sid_map overlap_text false).status = RETURN_STATUS_OK ∧
      overlap_state.lost_gtids.denote ⊆ overlap_state.logged_gtids.denote ∧
      (add_executed_gtid_set overlap_state false 2 true (fun gs => (true, gs)) overlap_text).1 =
        true ∧
      (add_executed_gtid_set overlap_state false 2 true (fun gs => (true, gs))
        overlap_text).2.logged_gtids.denote = ∅ ∧
      (add_executed_gtid_set overlap_state false 2 true (fun gs => (true, gs))
        overlap_text).2.logged_gtids.denote ≠ overlap_state.logged_gtids.denote ∧
      ¬ overlap_state.lost_gtids.denote ⊆ (add_executed_gtid_set overlap_state false 2 true
        (fun gs => (true, gs)) overlap_text).2.logged_gtids.denote := by
  -- the state the failed `SET` leaves
  set r := add_executed_gtid_set overlap_state false 2 true (fun gs => (true, gs)) overlap_text
  have hint : r.2.logged_gtids.intervals = [[]] := by decide
  have hempty : r.2.logged_gtids.denote = ∅ := by
    ext ⟨j, g⟩
    have hivs : r.2.logged_gtids.ivs j = [] := by
      unfold Gtid_set.ivs
      rw [hint]
      cases j - 1 <;> rfl
    simp [Gtid_set.mem_denote, hivs]
  have hmem : (1, 1) ∈ overlap_state.logged_gtids.denote := by
    simp [overlap_state, Gtid_set.mem_denote, Gtid_set.ivs, covers]
  have hlost : ¬ overlap_state.lost_gtids.denote ⊆ r.2.logged_gtids.denote := by
    intro hsub
    have := hsub hmem
    rw [hempty] at this
    exact this
  refine ⟨by decide, le_rfl, by decide, hempty, fun heq => hlost (heq ▸ le_rfl), hlost⟩

end Gtid
end AliSql
