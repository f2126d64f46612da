import Mathlib
import AliSql.Gtid.Encoding

/-!
# Runs of GTID-set operations over one shared map

A `Gtid_set` lives next to the `Sid_map` its SIDNOs index, and the text and binary
parsers add SIDs to that map while they add intervals to the set. This file models a
run of the set operations as a state machine. The state is the map and the set
(`State`); an operation (`Op`) is one call of `_add_gtid`, `_remove_gtid`,
`add_gtid_set`, `remove_gtid_set`, `add_gtid_text`, `remove_gtid_text`,
`add_gtid_encoding`, `intersection`, `clear` or `get_string_length` on the state's set,
and `Op.step` makes the call. For `intersection(other, result)` the state's set is
`this`, and the set the call leaves in `result` becomes the state's set.

An operation is `Valid` when its caller keeps the preconditions of the source:
`_add_gtid` and `_remove_gtid` take a SIDNO (`_add_gtid` one the set already has, as
its `Interval_iterator` asserts) and `_add_gtid` a GNO in `[1, MAX_GNO)`; a set passed
as an operand is one the operations build over the map (`Operand`).

## What a run means

The abstract machine (`Op.spec` on `Abs`) says what the operations are for. On the set
of GTIDs they are insertion, deletion, union, difference, union with what a text or
an encoding names (`read_text`, `read_encoding`, which do not look at any set),
intersection and emptying; `get_string_length` only fills the cache. The map evolves
as the readings say.

The set also carries its interval memory (`Gtid.Memory`). `add_gtid_text` on a set with
no chunk allocates one of as many intervals as the text has `':'`; for a text with none,
the chunk has size 0 and the free list points past its block, so the next call that needs
a free interval reads and writes out of bounds (`add_gtid_text_overrun`). A run is `Safe`
when no call does that; along a safe run the memory stays sound, so no access leaves a
block and the model's lists are those of the code.

* `step_refines`: from a state satisfying the invariant `State.Inv`, one valid step
  of the model is one step of the abstract machine, and keeps the invariant;
* `Run.sound`: a run of safe calls keeps the interval memory sound;
* `safe_run_refines`: every safe run from an empty set never reads or writes past a
  chunk, keeps every list in normal form, and denotes what the abstract machine
  computes along the same operations;
* `safe_run_to_string`: on every state of such a run, `to_string` writes exactly the
  length `get_string_length` returns, cached or not, in each of the three formats whose
  text has fewer than `2 ^ 31` characters, and the default text reads back into an empty
  set as the same lists.
-/

set_option autoImplicit false

namespace AliSql
namespace Gtid

open IntervalList Bytes enum_return_status

/-! ## The machine -/

/-- The shared map and the set the operations act on. -/
structure State where
  sid_map : Sid_map
  set : Gtid_set

/-- One call on the state's set, with its arguments. -/
inductive Op where
  | _add_gtid (sidno : Nat) (gno : Int)
  | _remove_gtid (sidno : Nat) (gno : Int)
  | add_gtid_set (other : Gtid_set)
  | remove_gtid_set (other : Gtid_set)
  | add_gtid_text (text : List Char) (anonymous_p : Bool)
  | remove_gtid_text (text : List Char)
  | add_gtid_encoding (mem : Memory) (length : Nat) (actual_length_p : Bool) (fuel : Nat)
  | intersection (other result : Gtid_set)
  | clear
  | get_string_length (sf : String_format)

/-- The call: the map and the set it leaves; `none` when the binary decoder runs out
    of fuel. The status the parsers return is the caller's to check. -/
def Op.step : Op → State → Option State
  | ._add_gtid sidno gno, σ => some ⟨σ.sid_map, σ.set._add_gtid sidno gno⟩
  | ._remove_gtid sidno gno, σ => some ⟨σ.sid_map, σ.set._remove_gtid sidno gno⟩
  | .add_gtid_set other, σ => some ⟨σ.sid_map, σ.set.add_gtid_set other⟩
  | .remove_gtid_set other, σ => some ⟨σ.sid_map, σ.set.remove_gtid_set other⟩
  | .add_gtid_text text anonymous_p, σ =>
    let r := σ.set.add_gtid_text σ.sid_map text anonymous_p
    some ⟨r.sid_map, r.set⟩
  | .remove_gtid_text text, σ =>
    let r := σ.set.remove_gtid_text σ.sid_map text
    some ⟨r.2.1, r.2.2⟩
  | .add_gtid_encoding mem length actual_length_p fuel, σ =>
    (σ.set.add_gtid_encoding σ.sid_map mem length actual_length_p fuel).map
      fun r => ⟨r.sid_map, r.set⟩
  | .intersection other result, σ => some ⟨σ.sid_map, σ.set.intersection other result⟩
  | .clear, σ => some ⟨σ.sid_map, σ.set.clear⟩
  | .get_string_length sf, σ => some ⟨σ.sid_map, (σ.set.get_string_length sf).2⟩

/-- A set the operations may take as an operand over the map `m`: in normal form,
    with SIDNOs of `m`, and a valid string-length cache, as every set they build. -/
structure Operand (m : Sid_map) (o : Gtid_set) : Prop where
  nf : o.NF
  fits : o.get_max_sidno ≤ m.get_max_sidno
  cache : o.Cache_ok

/-- The preconditions the callers of each operation keep. -/
def Op.Valid : Op → State → Prop
  | ._add_gtid sidno gno, σ => 1 ≤ sidno ∧ sidno ≤ σ.set.get_max_sidno ∧ 1 ≤ gno ∧ gno < MAX_GNO
  | ._remove_gtid sidno _, _ => 1 ≤ sidno
  | .add_gtid_set other, σ => Operand σ.sid_map other
  | .remove_gtid_set other, σ => Operand σ.sid_map other
  | .intersection other result, σ => Operand σ.sid_map other ∧ Operand σ.sid_map result
  | _, _ => True

/-- The invariant of the states of a run: a well-formed map, a set in normal form
    whose SIDNOs the map names, and a valid cache. -/
structure State.Inv (σ : State) : Prop where
  wf : σ.sid_map.WF
  nf : σ.set.NF
  fits : σ.set.get_max_sidno ≤ σ.sid_map.get_max_sidno
  cache : σ.set.Cache_ok

/-- Runs: each operation valid in the state it starts from. -/
inductive Run : State → List Op → State → Prop
  | nil (σ : State) : Run σ [] σ
  | cons {σ σ' σ'' : State} {op : Op} {ops : List Op} :
      op.Valid σ → op.step σ = some σ' → Run σ' ops σ'' → Run σ (op :: ops) σ''

/-! ## The abstract machine -/

/-- The map and the set of GTIDs. -/
structure Abs where
  sid_map : Sid_map
  gtids : Set (Nat × Int)

/-- What a state means. -/
def State.abs (σ : State) : Abs := ⟨σ.sid_map, σ.set.denote⟩

/-- What each operation is for. -/
def Op.spec : Op → Abs → Option Abs
  | ._add_gtid sidno gno, a => some ⟨a.sid_map, insert (sidno, gno) a.gtids⟩
  | ._remove_gtid sidno gno, a => some ⟨a.sid_map, a.gtids \ {(sidno, gno)}⟩
  | .add_gtid_set other, a => some ⟨a.sid_map, a.gtids ∪ other.denote⟩
  | .remove_gtid_set other, a => some ⟨a.sid_map, a.gtids \ other.denote⟩
  | .add_gtid_text text anonymous_p, a =>
    let q := read_text a.sid_map text anonymous_p
    some ⟨q.sid_map, a.gtids ∪ q.denote⟩
  | .remove_gtid_text text, a =>
    let q := read_text a.sid_map text false
    some ⟨q.sid_map, if q.status = RETURN_STATUS_OK then a.gtids \ q.denote else a.gtids⟩
  | .add_gtid_encoding mem length actual_length_p fuel, a =>
    (read_encoding a.sid_map mem length actual_length_p fuel).map
      fun q => ⟨q.sid_map, a.gtids ∪ q.denote⟩
  | .intersection other result, a => some ⟨a.sid_map, result.denote ∪ (a.gtids ∩ other.denote)⟩
  | .clear, a => some ⟨a.sid_map, ∅⟩
  | .get_string_length _, a => some a

/-- The abstract machine along a list of operations. -/
def spec_run (ops : List Op) (a : Abs) : Option Abs := ops.foldlM (fun a op => op.spec a) a

/-! ## One step -/

section Step

variable {σ : State}

/-- The steps that leave the map as it is: the new set keeps the invariant when it is
    in normal form, fits the map, and is a mutator's result. -/
theorem State.Inv.of_set (h : σ.Inv) {t : Gtid_set} (hnf : t.NF)
    (hfit : t.get_max_sidno ≤ σ.sid_map.get_max_sidno) (hc : Gtid_set.Cache_step σ.set t) :
    (⟨σ.sid_map, t⟩ : State).Inv :=
  ⟨h.wf, hnf, hfit, h.cache.of_step hc⟩

theorem step_refines_add_gtid (h : σ.Inv) {sidno : Nat} {gno : Int}
    (hv : (Op._add_gtid sidno gno).Valid σ) :
    Option.Rel (fun σ' a => σ'.Inv ∧ σ'.abs = a) ((Op._add_gtid sidno gno).step σ)
      ((Op._add_gtid sidno gno).spec σ.abs) := by
  obtain ⟨h₁, h₂, hg, hg'⟩ := hv
  obtain ⟨hnf, hmax, hden⟩ := Gtid_set._add_gtid_spec h.nf h₁ h₂ hg hg'
  have hc := Gtid_set.Cache_step.write_relation._add_gtid σ.set sidno gno
  refine Option.Rel.some ⟨h.of_set hnf (hmax ▸ h.fits) hc, ?_⟩
  simp only [State.abs, hden]

theorem step_refines_remove_gtid (h : σ.Inv) {sidno : Nat} {gno : Int}
    (hv : (Op._remove_gtid sidno gno).Valid σ) :
    Option.Rel (fun σ' a => σ'.Inv ∧ σ'.abs = a) ((Op._remove_gtid sidno gno).step σ)
      ((Op._remove_gtid sidno gno).spec σ.abs) := by
  obtain ⟨hnf, hmax, hden⟩ := @Gtid_set._remove_gtid_spec σ.set sidno gno h.nf hv
  have hc := Gtid_set.Cache_step.write_relation._remove_gtid σ.set sidno gno
  refine Option.Rel.some ⟨h.of_set hnf (hmax ▸ h.fits) hc, ?_⟩
  simp only [State.abs, hden]

theorem step_refines_add_gtid_set (h : σ.Inv) {other : Gtid_set}
    (hv : (Op.add_gtid_set other).Valid σ) :
    Option.Rel (fun σ' a => σ'.Inv ∧ σ'.abs = a) ((Op.add_gtid_set other).step σ)
      ((Op.add_gtid_set other).spec σ.abs) := by
  obtain ⟨hnf, hmax, hden⟩ := Gtid_set.add_gtid_set_spec h.nf hv.nf
  have hfit : (σ.set.add_gtid_set other).get_max_sidno ≤ σ.sid_map.get_max_sidno := by
    rw [hmax]
    exact max_le h.fits hv.fits
  have hc := Gtid_set.Cache_step.write_relation.add_gtid_set σ.set other
  refine Option.Rel.some ⟨h.of_set hnf hfit hc, ?_⟩
  simp only [State.abs, hden]

theorem step_refines_remove_gtid_set (h : σ.Inv) {other : Gtid_set}
    (hv : (Op.remove_gtid_set other).Valid σ) :
    Option.Rel (fun σ' a => σ'.Inv ∧ σ'.abs = a) ((Op.remove_gtid_set other).step σ)
      ((Op.remove_gtid_set other).spec σ.abs) := by
  obtain ⟨hnf, hmax, hden⟩ := Gtid_set.remove_gtid_set_spec h.nf hv.nf
  have hc := Gtid_set.Cache_step.write_relation.remove_gtid_set σ.set other
  refine Option.Rel.some ⟨h.of_set hnf (hmax ▸ h.fits) hc, ?_⟩
  simp only [State.abs, hden]

theorem step_refines_add_gtid_text (h : σ.Inv) (text : List Char) (anonymous_p : Bool) :
    Option.Rel (fun σ' a => σ'.Inv ∧ σ'.abs = a) ((Op.add_gtid_text text anonymous_p).step σ)
      ((Op.add_gtid_text text anonymous_p).spec σ.abs) := by
  have hr := add_gtid_text_spec h.nf h.fits text anonymous_p
  have hg := read_text_grows σ.sid_map text anonymous_p
  refine Option.Rel.some ⟨⟨?_, hr.nf, hr.fits, h.cache.of_step
    (σ.set.cache_step_add_gtid_text _ _ _)⟩, ?_⟩
  · rw [hr.sid_map]
    exact hg.wf h.wf
  · simp only [State.abs, hr.sid_map, hr.denote]

theorem step_refines_remove_gtid_text (h : σ.Inv) (text : List Char) :
    Option.Rel (fun σ' a => σ'.Inv ∧ σ'.abs = a) ((Op.remove_gtid_text text).step σ)
      ((Op.remove_gtid_text text).spec σ.abs) := by
  obtain ⟨-, hmap, hnf, hmax, hden⟩ := remove_gtid_text_spec h.nf σ.sid_map text
  have hg := read_text_grows σ.sid_map text false
  refine Option.Rel.some ⟨⟨?_, hnf, ?_, h.cache.of_step
    (Gtid_set.Cache_step.write_relation.remove_gtid_text σ.set _ _)⟩, ?_⟩
  · rw [hmap]
    exact hg.wf h.wf
  · -- the set keeps its SIDNOs, and the map only grew
    rw [hmax, hmap]
    exact h.fits.trans hg.max_le
  · simp only [State.abs, hmap, hden]
    rfl

theorem step_refines_add_gtid_encoding (h : σ.Inv) (mem : Memory) (length : Nat)
    (actual_length_p : Bool) (fuel : Nat) :
    Option.Rel (fun σ' a => σ'.Inv ∧ σ'.abs = a)
      ((Op.add_gtid_encoding mem length actual_length_p fuel).step σ)
      ((Op.add_gtid_encoding mem length actual_length_p fuel).spec σ.abs) := by
  have hspec := add_gtid_encoding_spec h.nf h.fits mem length actual_length_p fuel
  simp only [Op.step, Op.spec, State.abs]
  revert hspec
  generalize hd : σ.set.add_gtid_encoding σ.sid_map mem length actual_length_p fuel = od
  generalize hq : read_encoding σ.sid_map mem length actual_length_p fuel = oq
  rintro (⟨hr⟩ | _)
  · rename_i r q
    have hg := read_encoding_grows hq
    rw [Option.map_some, Option.map_some]
    refine Option.Rel.some ⟨⟨?_, hr.nf, hr.fits, h.cache.of_step
      (Gtid_set.Cache_step.write_relation.add_gtid_encoding hd)⟩, ?_⟩
    · dsimp only
      rw [hr.sid_map]
      exact hg.wf h.wf
    · simp only [hr.sid_map, hr.denote]
  · exact Option.Rel.none

theorem step_refines_intersection (h : σ.Inv) {other result : Gtid_set}
    (hv : (Op.intersection other result).Valid σ) :
    Option.Rel (fun σ' a => σ'.Inv ∧ σ'.abs = a) ((Op.intersection other result).step σ)
      ((Op.intersection other result).spec σ.abs) := by
  obtain ⟨ho, hres⟩ := hv
  obtain ⟨hnf, hmax, hden⟩ := Gtid_set.intersection_spec h.nf ho.nf hres.nf
  have hfit : (σ.set.intersection other result).get_max_sidno ≤ σ.sid_map.get_max_sidno := by
    rw [hmax]
    exact max_le hres.fits h.fits
  -- the new set is `result` after `add_gtid_set`, so its cache comes from `result`
  have hc := Gtid_set.Cache_step.write_relation.intersection σ.set other result
  refine Option.Rel.some ⟨⟨h.wf, hnf, hfit, hres.cache.of_step hc⟩, ?_⟩
  simp only [State.abs, hden]

theorem step_refines_clear (h : σ.Inv) :
    Option.Rel (fun σ' a => σ'.Inv ∧ σ'.abs = a) (Op.clear.step σ) (Op.clear.spec σ.abs) := by
  obtain ⟨hnf, hmax, hden⟩ := Gtid_set.clear_spec σ.set
  refine Option.Rel.some ⟨h.of_set hnf (hmax ▸ h.fits) σ.set.cache_step_clear, ?_⟩
  simp only [State.abs, hden]

theorem step_refines_get_string_length (h : σ.Inv) (sf : String_format) :
    Option.Rel (fun σ' a => σ'.Inv ∧ σ'.abs = a) ((Op.get_string_length sf).step σ)
      ((Op.get_string_length sf).spec σ.abs) := by
  obtain ⟨hc, hi⟩ := Gtid_set.get_string_length_cache_ok h.cache sf
  -- only the cache changes: the lists, hence the invariant and the meaning, stay
  have hivs : (σ.set.get_string_length sf).2.ivs = σ.set.ivs := by
    funext j
    simp only [Gtid_set.ivs, hi]
  refine Option.Rel.some ⟨⟨h.wf, ?_, ?_, hc⟩, ?_⟩
  · intro l hl
    exact h.nf l (hi ▸ hl)
  · simp only [Gtid_set.get_max_sidno, hi]
    exact h.fits
  · simp only [State.abs, Gtid_set.denote, hivs]

end Step

theorem rel_some_left {α β : Type} {R : α → β → Prop} {x : α} {o : Option β}
    (h : Option.Rel R (some x) o) : ∃ y, o = some y ∧ R x y := by
  cases h with
  | some hr => exact ⟨_, rfl, hr⟩

/-- **One step of the model is one step of the abstract machine**, and keeps the
    invariant. -/
theorem step_refines {σ : State} (h : σ.Inv) (op : Op) (hv : op.Valid σ) :
    Option.Rel (fun σ' a => σ'.Inv ∧ σ'.abs = a) (op.step σ) (op.spec σ.abs) := by
  cases op with
  | _add_gtid sidno gno => exact step_refines_add_gtid h hv
  | _remove_gtid sidno gno => exact step_refines_remove_gtid h hv
  | add_gtid_set other => exact step_refines_add_gtid_set h hv
  | remove_gtid_set other => exact step_refines_remove_gtid_set h hv
  | add_gtid_text text anonymous_p => exact step_refines_add_gtid_text h text anonymous_p
  | remove_gtid_text text => exact step_refines_remove_gtid_text h text
  | add_gtid_encoding mem length actual_length_p fuel =>
    exact step_refines_add_gtid_encoding h mem length actual_length_p fuel
  | intersection other result => exact step_refines_intersection h hv
  | clear => exact step_refines_clear h
  | get_string_length sf => exact step_refines_get_string_length h sf

/-- Every run from a state satisfying the invariant keeps it, and computes what the
    abstract machine computes. Induction on the run. -/
theorem Run.refines {σ σ'' : State} {ops : List Op} (hrun : Run σ ops σ'') (h : σ.Inv) :
    σ''.Inv ∧ spec_run ops σ.abs = some σ''.abs := by
  induction hrun with
  | nil σ => exact ⟨h, rfl⟩
  | @cons σ σ' σ'' op ops hv hstep _ ih =>
    have hrel := step_refines h op hv
    rw [hstep] at hrel
    obtain ⟨a, ha, hinv, habs⟩ := rel_some_left hrel
    obtain ⟨hinv'', hrun''⟩ := ih hinv
    refine ⟨hinv'', ?_⟩
    simp only [spec_run, List.foldlM_cons, ha, ← habs]
    exact hrun''

/-- The empty set over a well-formed map is where runs start. -/
theorem State.inv_empty {m : Sid_map} (hm : m.WF) : (⟨m, Gtid_set.empty⟩ : State).Inv :=
  ⟨hm, Gtid_set.nf_empty, Nat.zero_le _, Or.inl rfl⟩

/-! ## The interval memory along a run -/

/-- The calls that keep the interval memory sound: `add_gtid_text` allocates no chunk of
    size 0 (`Gtid_set.no_empty_chunk`), and `intersection` builds on a `result` whose
    memory is sound. -/
def Op.Safe : Op → State → Prop
  | .add_gtid_text text _, σ => σ.set.no_empty_chunk text
  | .intersection _ result, _ => result.interval_memory.Sound
  | _, _ => True

/-- Every call of a list safe in the state it starts from. -/
inductive Safe_calls : State → List Op → Prop
  | nil (σ : State) : Safe_calls σ []
  | cons {σ : State} {op : Op} {ops : List Op} :
      op.Safe σ → (∀ σ', op.step σ = some σ' → Safe_calls σ' ops) → Safe_calls σ (op :: ops)

/-- `get_string_length` only fills the cache. -/
theorem Gtid_set.interval_memory_get_string_length (s : Gtid_set) (sf : String_format) :
    (s.get_string_length sf).2.interval_memory = s.interval_memory := by
  unfold Gtid_set.get_string_length
  split <;> rfl

/-- **A safe call keeps the interval memory sound.** -/
theorem Op.sound_step {op : Op} {σ σ' : State} (hs : op.Safe σ) (hstep : op.step σ = some σ') :
    Gtid_set.Sound_step σ.set σ'.set := by
  cases op with
  | _add_gtid sidno gno =>
    cases hstep
    exact Gtid_set.Sound_step.write_relation._add_gtid _ _ _
  | _remove_gtid sidno gno =>
    cases hstep
    exact Gtid_set.Sound_step.write_relation._remove_gtid _ _ _
  | add_gtid_set other =>
    cases hstep
    exact Gtid_set.Sound_step.write_relation.add_gtid_set _ _
  | remove_gtid_set other =>
    cases hstep
    exact Gtid_set.Sound_step.write_relation.remove_gtid_set _ _
  | add_gtid_text text anonymous_p =>
    cases hstep
    exact sound_step_add_gtid_text hs _ _
  | remove_gtid_text text =>
    cases hstep
    exact Gtid_set.Sound_step.write_relation.remove_gtid_text _ _ _
  | add_gtid_encoding mem length actual_length_p fuel =>
    -- the one call that may fail: the decoder's result, when there is one
    obtain ⟨r, hr, rfl⟩ := Option.map_eq_some_iff.mp hstep
    exact Gtid_set.Sound_step.write_relation.add_gtid_encoding hr
  | intersection other result =>
    -- the new set is `result` after `add_gtid_set`: its memory comes from `result`'s
    cases hstep
    exact fun _ => Gtid_set.Sound_step.write_relation.intersection _ _ _ hs
  | clear =>
    cases hstep
    exact Gtid_set.sound_step_clear _
  | get_string_length sf =>
    cases hstep
    intro h
    rw [Gtid_set.interval_memory_get_string_length]
    exact h

/-- **A run of safe calls keeps the interval memory sound.** Induction on the run. -/
theorem Run.sound {σ σ'' : State} {ops : List Op} (hrun : Run σ ops σ'')
    (hsafe : Safe_calls σ ops) (h : σ.set.interval_memory.Sound) :
    σ''.set.interval_memory.Sound := by
  induction hrun with
  | nil σ => exact h
  | @cons σ σ' σ'' op ops _ hstep _ ih =>
    cases hsafe with
    | cons hs hnext => exact ih (hnext σ' hstep) (Op.sound_step hs hstep h)

/-- **Every safe run from an empty set** over a well-formed map never reads or writes past
    a chunk (its free list holds only intervals inside chunks), keeps each SIDNO's list in
    normal form (every interval non-empty with `1 ≤ start`, `end ≤ MAX_GNO`, and ending
    strictly before the next one starts) and denotes what the abstract machine computes
    from the empty set along the same operations: insertions, deletions, unions,
    differences, intersections and emptying. -/
theorem safe_run_refines {m : Sid_map} (hm : m.WF) {ops : List Op} {σ : State}
    (hrun : Run ⟨m, Gtid_set.empty⟩ ops σ) (hsafe : Safe_calls ⟨m, Gtid_set.empty⟩ ops) :
    σ.set.interval_memory.Sound ∧ (∀ sidno, Normal (σ.set.ivs sidno)) ∧
      spec_run ops ⟨m, ∅⟩ = some σ.abs := by
  obtain ⟨hinv, hspec⟩ := hrun.refines (State.inv_empty hm)
  refine ⟨hrun.sound hsafe Interval_memory.sound_init, hinv.nf.ivs, ?_⟩
  simpa [State.abs] using hspec

/-- The text of the SID `00000000-0000-0000-0000-000000000000` alone, with no GNO. -/
def sid_text : List Char := "00000000-0000-0000-0000-000000000000".toList

/-- A run over an empty map: it adds `sid:1-3` from a text, caches the length of its
    default text, and removes GNO 2. -/
theorem safe_run_three_steps :
    let ops : List Op := [.add_gtid_text (sid_text ++ ":1-3".toList) false,
      .get_string_length default_string_format, ._remove_gtid 1 2]
    Sid_map.empty.WF ∧ ∃ σ, Run ⟨Sid_map.empty, Gtid_set.empty⟩ ops σ ∧
      Safe_calls ⟨Sid_map.empty, Gtid_set.empty⟩ ops := by
  intro ops
  -- the text has a `':'`, so the chunk `add_gtid_text` allocates is not empty
  have hsafe : Safe_calls ⟨Sid_map.empty, Gtid_set.empty⟩ ops :=
    .cons (Or.inr (Or.inr (by decide))) fun _ _ =>
      .cons trivial fun _ _ => .cons trivial fun _ _ => .nil _
  exact ⟨Sid_map.wf_empty, _, Run.cons trivial rfl (Run.cons trivial rfl
    (Run.cons (le_refl 1) rfl (Run.nil _))), hsafe⟩

/-- The run of `safe_run_three_steps` refines the abstract machine. -/
theorem safe_run_refines_three_steps :
    let ops : List Op := [.add_gtid_text (sid_text ++ ":1-3".toList) false,
      .get_string_length default_string_format, ._remove_gtid 1 2]
    Sid_map.empty.WF ∧ ∃ σ, Run ⟨Sid_map.empty, Gtid_set.empty⟩ ops σ ∧
      Safe_calls ⟨Sid_map.empty, Gtid_set.empty⟩ ops ∧
      (σ.set.interval_memory.Sound ∧ (∀ sidno, Normal (σ.set.ivs sidno)) ∧
        spec_run ops ⟨Sid_map.empty, ∅⟩ = some σ.abs) := by
  intro ops
  obtain ⟨hm, σ, hrun, hsafe⟩ := safe_run_three_steps
  exact ⟨hm, σ, hrun, hsafe, safe_run_refines hm hrun hsafe⟩

/-- **A text with no `':'` overruns the interval memory.** On a set with no chunk,
    `add_gtid_text` of a SID alone succeeds after allocating a chunk of size 0, whose
    free list is the cell past its block; the next call that takes a free interval, here
    `add_gtid_text` of `sid:1`, reads and writes that cell. -/
theorem add_gtid_text_overrun :
    (Gtid_set.empty.add_gtid_text Sid_map.empty sid_text false).status = RETURN_STATUS_OK ∧
      (Gtid_set.empty.add_gtid_text Sid_map.empty sid_text false).set.interval_memory =
        ⟨true, [.past_end], false⟩ ∧
      ∃ σ, Run ⟨Sid_map.empty, Gtid_set.empty⟩
          [.add_gtid_text sid_text false, .add_gtid_text (sid_text ++ ":1".toList) false] σ ∧
        σ.set.interval_memory.overrun = true := by
  refine ⟨by decide, by decide, _, Run.cons trivial rfl (Run.cons trivial rfl (Run.nil _)), ?_⟩
  decide

/-- **`to_string` and `get_string_length` agree on every state of a safe run** from an
    empty set, in each of the three formats whose text has fewer than `2 ^ 31` characters,
    whether the length comes from a cache filled before later mutations or is counted; and
    the default text of the set, read into an empty set over the same map, succeeds with
    the same lists. -/
theorem safe_run_to_string {m : Sid_map} (hm : m.WF) {ops : List Op} {σ : State}
    (hrun : Run ⟨m, Gtid_set.empty⟩ ops σ) (hsafe : Safe_calls ⟨m, Gtid_set.empty⟩ ops) :
    σ.set.interval_memory.Sound ∧
    (∀ sf ∈ [default_string_format, sql_string_format, commented_string_format],
      σ.set.exact_string_length sf < 2 ^ 31 →
        ((σ.set.to_string σ.sid_map sf).length : Int) = (σ.set.get_string_length sf).1) ∧
    (Gtid_set.empty.add_gtid_text σ.sid_map
        (σ.set.to_string σ.sid_map default_string_format) false).status = RETURN_STATUS_OK ∧
    (Gtid_set.empty.add_gtid_text σ.sid_map
        (σ.set.to_string σ.sid_map default_string_format) false).sid_map = σ.sid_map ∧
    ∀ j, (Gtid_set.empty.add_gtid_text σ.sid_map
        (σ.set.to_string σ.sid_map default_string_format) false).set.ivs j = σ.set.ivs j := by
  obtain ⟨h, -⟩ := hrun.refines (State.inv_empty hm)
  refine ⟨hrun.sound hsafe Interval_memory.sound_init, fun sf hsf hlt => ?_,
    add_gtid_text_to_string h.nf h.wf h.fits⟩
  rw [Gtid_set.get_string_length_of_cache_ok h.cache, Gtid_set.string_length_of_lt hlt,
    to_string_length h.nf h.wf h.fits (String_format.wf_of_mem hsf)]

/-- The run of `safe_run_three_steps`: its set's texts have the lengths
    `get_string_length` returns, and the default one reads back. -/
theorem safe_run_to_string_three_steps :
    let ops : List Op := [.add_gtid_text (sid_text ++ ":1-3".toList) false,
      .get_string_length default_string_format, ._remove_gtid 1 2]
    Sid_map.empty.WF ∧ ∃ σ, Run ⟨Sid_map.empty, Gtid_set.empty⟩ ops σ ∧
      Safe_calls ⟨Sid_map.empty, Gtid_set.empty⟩ ops ∧
      (σ.set.interval_memory.Sound ∧
      (∀ sf ∈ [default_string_format, sql_string_format, commented_string_format],
        σ.set.exact_string_length sf < 2 ^ 31 →
          ((σ.set.to_string σ.sid_map sf).length : Int) = (σ.set.get_string_length sf).1) ∧
      (Gtid_set.empty.add_gtid_text σ.sid_map
          (σ.set.to_string σ.sid_map default_string_format) false).status = RETURN_STATUS_OK ∧
      (Gtid_set.empty.add_gtid_text σ.sid_map
          (σ.set.to_string σ.sid_map default_string_format) false).sid_map = σ.sid_map ∧
      ∀ j, (Gtid_set.empty.add_gtid_text σ.sid_map
          (σ.set.to_string σ.sid_map default_string_format) false).set.ivs j = σ.set.ivs j) := by
  intro ops
  obtain ⟨hm, σ, hrun, hsafe⟩ := safe_run_three_steps
  exact ⟨hm, σ, hrun, hsafe, safe_run_to_string hm hrun hsafe⟩

end Gtid
end AliSql
