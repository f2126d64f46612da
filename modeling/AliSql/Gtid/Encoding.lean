import Mathlib
import AliSql.Lib.Bytes
import AliSql.Gtid.ToString

/-!
# The binary form of GTID sets: `encode`, `add_gtid_encoding`, `get_encoded_length`

`Gtid_set::encode` (`rpl_gtid_set.cc`) writes a set as

    n_sids                                    8 bytes
    for each SIDNO with intervals, in SID order:
      SID                                    16 bytes
      n_intervals                             8 bytes
      for each interval: start, end       8 + 8 bytes

with every number little-endian (on x86-64 `int8store`, `uint8korr` and `sint8korr`
store and load the word in place). `add_gtid_encoding` reads it back: before each SID
it checks that `16 + 8` bytes remain and before its intervals that
`2 * 8 * n_intervals` do, it rejects an interval that does not start after the one
before ends or is empty, and it adds the intervals through one iterator, under the
same reset rule as the text parser (`Gtid_set.iter_pos`). `get_encoded_length`
predicts the size of the encoding, which callers allocate before `encode`.

## Machine arithmetic and memory

The model keeps the types of the source where they can wrap. `length - pos` is
`size_t` arithmetic (`size_sub`) and `2 * 8 * n_intervals` is `uint64` arithmetic
(`% 2 ^ 64`); the two loop counters are `uint` (`UInt32`); `get_encoded_length` adds
`16 + 8 + 2 * 8 * get_n_intervals(sidno)`, which is computed in `int` (`to_int`: the
low 32 bits in two's complement, what the compiler's wrapping gives). The buffer is a
`Memory` that holds the `length` bytes at address `0`; whatever the decoder reads past
them is what the memory holds there.

## Fuel

Both loops take fuel, and give `none` when it runs out. Each round of either loop that
stays inside the buffer consumes at least sixteen bytes of it, so any fuel above the
length of the buffer is enough for the encoding of a set (`read_encoding_encode`).

## Results

* `add_gtid_encoding_spec`: whatever the memory holds, the decoder returns what
  `read_encoding` reads, which does not look at the set; it keeps the normal form and
  adds exactly the GTIDs read, also when it stops on an error;
* `read_encoding_encode`: the encoding of a set in normal form reads back, with
  status OK, to the set's lists in SID order, without reading past its end;
* `encode_length` and `get_encoded_length_eq`: the encoding has the length
  `get_encoded_length` predicts, as long as no `int` in it overflows.
-/

set_option autoImplicit false

namespace AliSql
namespace Gtid

open IntervalList Bytes enum_return_status

/-! ## Machine words -/

/-- `int8store(T, A)`: the eight bytes of `(ulonglong) A`, lowest first. -/
def int8store (a : Int) : List UInt8 := split 8 (a % 2 ^ 64).toNat

/-- `uint8korr(A)`: the `ulonglong` at `A`. -/
def uint8korr (mem : Memory) (p : Nat) : Nat := load mem p 8

/-- `sint8korr(A)`: the `longlong` at `A`, in two's complement. -/
def sint8korr (mem : Memory) (p : Nat) : Int :=
  if uint8korr mem p < 2 ^ 63 then uint8korr mem p else (uint8korr mem p : Int) - 2 ^ 64

/-- `a - b` in `size_t`. -/
def size_sub (a b : Nat) : Nat := (((a : Int) - b) % 2 ^ 64).toNat

/-- `Uuid::copy_from(buf)`: the sixteen bytes at `p`. -/
def Uuid.copy_from (mem : Memory) (p : Nat) : Uuid := ⟨read mem p 16, length_read mem p 16⟩

@[simp] theorem length_int8store (a : Int) : (int8store a).length = 8 := by
  simp [int8store]

theorem uint8korr_of_holds {mem : Memory} {p : Nat} {a : Int} (h : Bytes.Holds mem p (int8store a)) :
    uint8korr mem p = (a % 2 ^ 64).toNat := by
  unfold uint8korr
  rw [load_of_holds_split h]
  apply Nat.mod_eq_of_lt
  have h₁ : a % 2 ^ 64 < 2 ^ 64 := Int.emod_lt_of_pos a (by norm_num)
  have h₂ : 0 ≤ a % 2 ^ 64 := Int.emod_nonneg a (by norm_num)
  omega

theorem uint8korr_lt (mem : Memory) (p : Nat) : uint8korr mem p < 2 ^ 64 := by
  have h := combine_lt (read mem p 8)
  rw [length_read] at h
  exact h

theorem uint8korr_of_holds_nat {mem : Memory} {p n : Nat} (hn : n < 2 ^ 64)
    (h : Bytes.Holds mem p (int8store n)) : uint8korr mem p = n := by
  rw [uint8korr_of_holds h]
  omega

theorem sint8korr_of_holds {mem : Memory} {p : Nat} {a : Int} (h₀ : 0 ≤ a) (h₁ : a < 2 ^ 63)
    (h : Bytes.Holds mem p (int8store a)) : sint8korr mem p = a := by
  have hu := uint8korr_of_holds h
  rw [Int.emod_eq_of_lt h₀ (by omega)] at hu
  unfold sint8korr
  rw [if_pos (by omega), hu]
  omega

/-- A `longlong` is at most `LLONG_MAX`, which is `MAX_GNO`. -/
theorem sint8korr_le (mem : Memory) (p : Nat) : sint8korr mem p ≤ MAX_GNO := by
  have := uint8korr_lt mem p
  unfold sint8korr MAX_GNO
  split <;> omega

theorem Uuid.copy_from_of_holds {mem : Memory} {p : Nat} {u : Uuid} (h : Bytes.Holds mem p u.bytes) :
    Uuid.copy_from mem p = u := by
  obtain ⟨bs, hbs⟩ := u
  simp only [Uuid.copy_from, Uuid.mk.injEq]
  unfold Bytes.Holds at h
  rw [hbs] at h
  exact h

theorem size_sub_of_le {a b : Nat} (h : b ≤ a) (ha : a < 2 ^ 64) : size_sub a b = a - b := by
  unfold size_sub
  rw [Int.emod_eq_of_lt (by omega) (by omega)]
  omega

/-! ## `encode` and `get_encoded_length` -/

/-- The sixteen bytes `encode` writes for one interval. -/
def interval_bytes (iv : Interval) : List UInt8 := int8store iv.start ++ int8store iv.end

/-- What `encode` writes for a SIDNO it does not skip: the SID, the number of intervals
    (stored after the interval loop, in the place kept for it), and the intervals. -/
def Gtid_set.sidno_bytes (s : Gtid_set) (m : Sid_map) (sidno : Nat) : List UInt8 :=
  (m.sidno_to_sid sidno).bytes ++ int8store (s.ivs sidno).length ++
    (s.ivs sidno).flatMap interval_bytes

/-- `Gtid_set::encode(buf)`: the bytes written to `buf`. The loop walks the SIDNOs of
    the map in SID order and skips those past the set's last SIDNO and those without
    intervals, the two tests of `contains_sidno`; the number of SIDs written goes
    first, in the eight bytes kept for it. -/
def Gtid_set.encode (s : Gtid_set) (m : Sid_map) : List UInt8 :=
  let written := m.sorted_sidnos.filter s.contains_sidno
  int8store written.length ++ written.flatMap (s.sidno_bytes m)

/-- `Gtid_set::get_n_intervals(sidno)`: the count, kept in an `int`. -/
def Gtid_set.get_n_intervals (s : Gtid_set) (sidno : Nat) : Int := to_int (s.ivs sidno).length

/-- `Gtid_set::get_encoded_length()`: the SIDNOs in their own order, each adding
    `16 + 8 + 2 * 8 * get_n_intervals(sidno)`, an `int`, to the `size_t` total. -/
def Gtid_set.get_encoded_length (s : Gtid_set) : Nat :=
  (List.range' 1 s.get_max_sidno).foldl
    (fun ret sidno =>
      if s.contains_sidno sidno then
        (((ret : Int) + to_int (16 + 8 + to_int (2 * 8 * s.get_n_intervals sidno))) %
          2 ^ 64).toNat
      else ret)
    8

/-- The bytes a list of intervals takes in the encoding, SID and count included; none
    for an empty list, which `encode` skips. -/
def encoded_size (l : List Interval) : Nat := if l.isEmpty then 0 else 24 + 16 * l.length

@[simp] theorem length_interval_bytes (iv : Interval) : (interval_bytes iv).length = 16 := by
  simp [interval_bytes]

theorem length_flatMap_interval_bytes (l : List Interval) :
    (l.flatMap interval_bytes).length = 16 * l.length := by
  induction l with
  | nil => rfl
  | cons iv rest ih =>
    rw [List.flatMap_cons, List.length_append, ih, length_interval_bytes, List.length_cons]
    ring

theorem length_sidno_bytes (s : Gtid_set) (m : Sid_map) (sidno : Nat) :
    (s.sidno_bytes m sidno).length = 24 + 16 * (s.ivs sidno).length := by
  simp only [Gtid_set.sidno_bytes, List.length_append, (m.sidno_to_sid sidno).length_bytes,
    length_int8store, length_flatMap_interval_bytes]

/-- A sum over the SIDNOs `encode` does not skip is a sum over all of them, for a
    quantity that is zero on an empty list. -/
theorem sum_filter_contains (s : Gtid_set) {g : Nat → Nat} {F : List Interval → Nat}
    (hg : ∀ j, s.contains_sidno j = true → g j = F (s.ivs j)) (hF : F [] = 0) :
    ∀ L : List Nat, ((L.filter s.contains_sidno).map g).sum = (L.map fun j => F (s.ivs j)).sum
  | [] => rfl
  | j :: L => by
    rw [List.filter_cons, List.map_cons, List.sum_cons, ← sum_filter_contains s hg hF L]
    by_cases hc : s.contains_sidno j = true
    · rw [if_pos hc, List.map_cons, List.sum_cons, hg j hc]
    · have he : s.ivs j = [] := by
        rw [Gtid_set.contains_sidno_eq] at hc
        simpa using hc
      rw [if_neg hc, he, hF, Nat.zero_add]

/-- Over the SIDNOs with intervals, the blocks take their `encoded_size`. -/
theorem length_flatMap_sidno_bytes (s : Gtid_set) (m : Sid_map) (L : List Nat) :
    ((L.filter s.contains_sidno).flatMap (s.sidno_bytes m)).length =
      (L.map fun j => encoded_size (s.ivs j)).sum := by
  rw [List.length_flatMap]
  refine sum_filter_contains s (fun j hc => ?_) rfl L
  rw [Gtid_set.contains_sidno_eq] at hc
  rw [length_sidno_bytes, encoded_size, if_neg (by simpa using hc)]

/-- **The length of the encoding**: eight bytes and the blocks of the set's lists. -/
theorem encode_length {s : Gtid_set} {m : Sid_map} (hm : m.WF)
    (hmax : s.get_max_sidno ≤ m.get_max_sidno) :
    (s.encode m).length = 8 + (s.intervals.map encoded_size).sum := by
  simp only [Gtid_set.encode, List.length_append, length_int8store]
  rw [length_flatMap_sidno_bytes, sum_sorted_sidnos hm hmax encoded_size rfl]

/-- The loop of `get_encoded_length` adds the blocks' sizes as long as no `int` and no
    `size_t` overflows. -/
theorem foldl_encoded_length (s : Gtid_set) (hsmall : ∀ j, 16 * (s.ivs j).length + 24 < 2 ^ 31) :
    ∀ (L : List Nat) (ret : Nat), ret + (L.map fun j => encoded_size (s.ivs j)).sum < 2 ^ 64 →
      L.foldl (fun ret sidno =>
        if s.contains_sidno sidno then
          (((ret : Int) + to_int (16 + 8 + to_int (2 * 8 * s.get_n_intervals sidno))) %
            2 ^ 64).toNat
        else ret) ret = ret + (L.map fun j => encoded_size (s.ivs j)).sum
  | [], ret, _ => rfl
  | j :: L, ret, hlt => by
    rw [List.map_cons, List.sum_cons] at hlt ⊢
    rw [List.foldl_cons, Gtid_set.contains_sidno_eq]
    have hj := hsmall j
    by_cases he : (s.ivs j).isEmpty
    · have h0 : encoded_size (s.ivs j) = 0 := by simp [encoded_size, he]
      rw [h0] at hlt ⊢
      simp only [he, Bool.not_true, Bool.false_eq_true, if_false]
      rw [foldl_encoded_length s hsmall L ret (by omega)]
      omega
    · -- the three `int` values are small, and the `size_t` sum does not wrap
      have hsize : encoded_size (s.ivs j) = 24 + 16 * (s.ivs j).length := by
        simp [encoded_size, he]
      have hn : s.get_n_intervals j = (s.ivs j).length :=
        to_int_of_lt (by omega) (by omega)
      have h16 : to_int (2 * 8 * s.get_n_intervals j) = 16 * (s.ivs j).length := by
        rw [hn]
        exact to_int_of_lt (by omega) (by omega)
      have h24 : to_int (16 + 8 + to_int (2 * 8 * s.get_n_intervals j)) =
          24 + 16 * (s.ivs j).length := by
        rw [h16]
        exact to_int_of_lt (by omega) (by omega)
      rw [hsize] at hlt ⊢
      simp only [he, Bool.not_false, if_true, h24]
      rw [Int.emod_eq_of_lt (by omega) (by omega)]
      rw [show (((ret : Int) + (24 + 16 * ((s.ivs j).length : Int)))).toNat =
          ret + (24 + 16 * (s.ivs j).length) by omega]
      rw [foldl_encoded_length s hsmall L _ (by omega)]
      omega

theorem sum_encoded_size_le (ls : List (List Interval))
    (hsmall : ∀ l ∈ ls, 16 * l.length + 24 < 2 ^ 31) :
    (ls.map encoded_size).sum ≤ 2 ^ 31 * ls.length := by
  induction ls with
  | nil => simp
  | cons l ls ih =>
    have hl := hsmall l List.mem_cons_self
    have ih' := ih fun l' h => hsmall l' (List.mem_cons_of_mem _ h)
    have hle : encoded_size l ≤ 2 ^ 31 := by
      unfold encoded_size
      split <;> omega
    rw [List.map_cons, List.sum_cons, List.length_cons]
    omega

/-- A bound on every SIDNO's list is a bound on every list of the array. -/
theorem Gtid_set.intervals_small (s : Gtid_set) (hsmall : ∀ j, 16 * (s.ivs j).length + 24 < 2 ^ 31) :
    ∀ l ∈ s.intervals, 16 * l.length + 24 < 2 ^ 31 := by
  intro l hl
  obtain ⟨i, hi, rfl⟩ := List.getElem_of_mem hl
  have := hsmall (i + 1)
  simp only [Gtid_set.ivs, Nat.add_sub_cancel, List.getD_eq_getElem?_getD,
    List.getElem?_eq_getElem hi, Option.getD_some] at this
  exact this

/-- **`get_encoded_length` predicts the length of the encoding** when no `int` of it
    overflows: every SIDNO has fewer intervals than `16 * n + 24 < 2 ^ 31` allows, and
    there are fewer SIDNOs than an `rpl_sidno` can count. -/
theorem get_encoded_length_eq {s : Gtid_set} {m : Sid_map} (hm : m.WF)
    (hmax : s.get_max_sidno ≤ m.get_max_sidno) (hsids : m.get_max_sidno < 2 ^ 31)
    (hsmall : ∀ j, 16 * (s.ivs j).length + 24 < 2 ^ 31) :
    s.get_encoded_length = (s.encode m).length := by
  have hsum := sum_encoded_size_le s.intervals (s.intervals_small hsmall)
  have hlen : s.intervals.length = s.get_max_sidno := rfl
  rw [encode_length hm hmax, Gtid_set.get_encoded_length,
    foldl_encoded_length s hsmall _ 8 ?_, Gtid_set.sum_range'_ivs s encoded_size]
  rw [Gtid_set.sum_range'_ivs s encoded_size]
  have : 2 ^ 31 * s.intervals.length < 2 ^ 62 := by
    rw [hlen]
    calc 2 ^ 31 * s.get_max_sidno < 2 ^ 31 * 2 ^ 31 :=
          Nat.mul_lt_mul_of_pos_left (by omega) (by norm_num)
      _ = 2 ^ 62 := by norm_num
  omega

/-! ## `add_gtid_encoding` -/

/-- The interval loop of `add_gtid_encoding` for `sidno`, with its `uint` counter `i`,
    the `end` of the interval before in `last`, and the iterator at `k`. It returns
    whether all `n_intervals` intervals were well formed, the set and the position;
    `none` when the fuel runs out. -/
def add_encoded_intervals (mem : Memory) (sidno n_intervals : Nat) :
    Nat → UInt32 → Int → Nat → Gtid_set → Nat → Option (Bool × Gtid_set × Nat)
  | 0, _, _, _, _, _ => none
  | fuel + 1, i, last, k, s, pos =>
    if i.toNat < n_intervals then
      let start := sint8korr mem pos
      let e := sint8korr mem (pos + 8)
      if start ≤ last ∨ e ≤ start then some (false, s, pos + 16)
      else
        let r := s.add_gno_interval sidno (Gtid_set.iter_pos (s.ivs sidno) k start) start e
        add_encoded_intervals mem sidno n_intervals fuel (i + 1) e r.2 r.1 (pos + 16)
    else some (true, s, pos)

/-- The locals of `add_gtid_encoding` from SID to SID: no error so far (`ok`), the
    map, the set and the read position `pos`. -/
structure Decoder where
  ok : Bool
  sid_map : Sid_map
  set : Gtid_set
  pos : Nat

/-- The SID loop of `add_gtid_encoding`, with its `uint` counter `i`. The SIDNO of a
    SID is ensured in the set before its intervals are checked. -/
def add_encoded_sids (mem : Memory) (length n_sids : Nat) :
    Nat → UInt32 → Decoder → Option Decoder
  | 0, _, _ => none
  | fuel + 1, i, d =>
    if i.toNat < n_sids then
      if size_sub length d.pos < 16 + 8 then some { d with ok := false }
      else
        let n_intervals := uint8korr mem (d.pos + 16)
        let a := d.sid_map.add_sid (Uuid.copy_from mem d.pos)
        let s := d.set.ensure_sidno a.2
        if size_sub length (d.pos + 24) < 2 * 8 * n_intervals % 2 ^ 64 then
          some ⟨false, a.1, s, d.pos + 24⟩
        else
          match add_encoded_intervals mem a.2 n_intervals fuel 0 0 0 s (d.pos + 24) with
          | none => none
          | some r =>
            if r.1 then add_encoded_sids mem length n_sids fuel (i + 1) ⟨true, a.1, r.2.1, r.2.2⟩
            else some ⟨false, a.1, r.2.1, r.2.2⟩
    else some d

/-- What `add_gtid_encoding` leaves: its status, the map, the set, and what it writes
    to `*actual_length`. -/
structure Encoding_result where
  status : enum_return_status
  sid_map : Sid_map
  set : Gtid_set
  actual_length : Option Nat

/-- `Gtid_set::add_gtid_encoding(encoded, length, actual_length)` over the shared map
    `m`, reading the memory `mem` that holds `encoded` at `0`; `actual_length_p` says
    whether the caller passed `actual_length`. On an error the intervals added so far
    stay in the set. -/
def Gtid_set.add_gtid_encoding (s : Gtid_set) (m : Sid_map) (mem : Memory) (length : Nat)
    (actual_length_p : Bool) (fuel : Nat) : Option Encoding_result :=
  if length < 8 then some ⟨RETURN_STATUS_REPORTED_ERROR, m, s, none⟩
  else
    match add_encoded_sids mem length (uint8korr mem 0) fuel 0 ⟨true, m, s, 8⟩ with
    | none => none
    | some d =>
      if d.ok then
        if actual_length_p then some ⟨RETURN_STATUS_OK, d.sid_map, d.set, some d.pos⟩
        else if d.pos ≠ length then some ⟨RETURN_STATUS_REPORTED_ERROR, d.sid_map, d.set, none⟩
        else some ⟨RETURN_STATUS_OK, d.sid_map, d.set, none⟩
      else some ⟨RETURN_STATUS_REPORTED_ERROR, d.sid_map, d.set, none⟩

/-! ## What an encoding reads -/

/-- `add_encoded_intervals` with the set left out: the intervals read. -/
def read_encoded_intervals (mem : Memory) (n_intervals : Nat) :
    Nat → UInt32 → Int → Nat → Option (Bool × List Interval × Nat)
  | 0, _, _, _ => none
  | fuel + 1, i, last, pos =>
    if i.toNat < n_intervals then
      let start := sint8korr mem pos
      let e := sint8korr mem (pos + 8)
      if start ≤ last ∨ e ≤ start then some (false, [], pos + 16)
      else (read_encoded_intervals mem n_intervals fuel (i + 1) e (pos + 16)).map
        fun r => (r.1, ⟨start, e⟩ :: r.2.1, r.2.2)
    else some (true, [], pos)

/-- `Decoder` with the set left out: the intervals read, SIDNO by SIDNO. -/
structure Encoding_reader where
  ok : Bool
  sid_map : Sid_map
  items : List (Nat × List Interval)
  pos : Nat

/-- `add_encoded_sids` with the set left out. -/
def read_encoded_sids (mem : Memory) (length n_sids : Nat) :
    Nat → UInt32 → Encoding_reader → Option Encoding_reader
  | 0, _, _ => none
  | fuel + 1, i, q =>
    if i.toNat < n_sids then
      if size_sub length q.pos < 16 + 8 then some { q with ok := false }
      else
        let n_intervals := uint8korr mem (q.pos + 16)
        let a := q.sid_map.add_sid (Uuid.copy_from mem q.pos)
        if size_sub length (q.pos + 24) < 2 * 8 * n_intervals % 2 ^ 64 then
          some ⟨false, a.1, q.items, q.pos + 24⟩
        else
          match read_encoded_intervals mem n_intervals fuel 0 0 (q.pos + 24) with
          | none => none
          | some r =>
            if r.1 then
              read_encoded_sids mem length n_sids fuel (i + 1)
                ⟨true, a.1, q.items ++ [(a.2, r.2.1)], r.2.2⟩
            else some ⟨false, a.1, q.items ++ [(a.2, r.2.1)], r.2.2⟩
    else some q

/-- What `add_gtid_encoding` reads, apart from any set. -/
structure Encoding_reading where
  status : enum_return_status
  sid_map : Sid_map
  items : List (Nat × List Interval)
  actual_length : Option Nat

/-- `add_gtid_encoding` with the set left out. -/
def read_encoding (m : Sid_map) (mem : Memory) (length : Nat) (actual_length_p : Bool)
    (fuel : Nat) : Option Encoding_reading :=
  if length < 8 then some ⟨RETURN_STATUS_REPORTED_ERROR, m, [], none⟩
  else
    match read_encoded_sids mem length (uint8korr mem 0) fuel 0 ⟨true, m, [], 8⟩ with
    | none => none
    | some q =>
      if q.ok then
        if actual_length_p then some ⟨RETURN_STATUS_OK, q.sid_map, q.items, some q.pos⟩
        else if q.pos ≠ length then some ⟨RETURN_STATUS_REPORTED_ERROR, q.sid_map, q.items, none⟩
        else some ⟨RETURN_STATUS_OK, q.sid_map, q.items, none⟩
      else some ⟨RETURN_STATUS_REPORTED_ERROR, q.sid_map, q.items, none⟩

/-- The GTIDs an encoding lists. -/
def Encoding_reading.denote (q : Encoding_reading) : Set (Nat × Int) := items_denote q.items

/-- The interval loop reads what `read_encoded_intervals` reads and adds exactly
    those intervals to the list of `sidno`, keeping the normal form. Induction on the
    fuel; `0 ≤ last` makes every accepted `start` a GNO. -/
theorem add_encoded_intervals_spec (mem : Memory) {sidno : Nat} (n_intervals : Nat)
    (h₁ : 1 ≤ sidno) :
    ∀ (fuel : Nat) (i : UInt32) (last : Int) (k : Nat) (s : Gtid_set) (pos : Nat),
      s.NF → sidno ≤ s.get_max_sidno → 0 ≤ last →
      Option.Rel (fun (q : Bool × List Interval × Nat) (r : Bool × Gtid_set × Nat) =>
          r.1 = q.1 ∧ r.2.2 = q.2.2 ∧ r.2.1.NF ∧ r.2.1.get_max_sidno = s.get_max_sidno ∧
          r.2.1.denote = s.denote ∪
            {p | p.1 = sidno ∧ p.2 ∈ covers Interval.start Interval.end q.2.1})
        (read_encoded_intervals mem n_intervals fuel i last pos)
        (add_encoded_intervals mem sidno n_intervals fuel i last k s pos)
  | 0, _, _, _, _, _, _, _, _ => Option.Rel.none
  | fuel + 1, i, last, k, s, pos, hs, h₂, hlast => by
    simp only [read_encoded_intervals, add_encoded_intervals]
    split
    · split
      · exact Option.Rel.some ⟨rfl, rfl, hs, rfl, by simp⟩
      · rename_i hbad
        simp only [not_or, not_le] at hbad
        obtain ⟨hnf, hden⟩ := Gtid_set.add_gno_interval_iter_pos (k := k) hs h₁ h₂
          (by omega) hbad.2 (sint8korr_le mem (pos + 8))
        set r := s.add_gno_interval sidno (Gtid_set.iter_pos (s.ivs sidno) k (sint8korr mem pos))
          (sint8korr mem pos) (sint8korr mem (pos + 8))
        have ih := add_encoded_intervals_spec mem n_intervals h₁ fuel (i + 1)
          (sint8korr mem (pos + 8)) r.2 r.1 (pos + 16) hnf
          (by rw [Gtid_set.get_max_sidno_add_gno_interval]; exact h₂) (by omega)
        -- the reading puts the interval in front of what the rest of the loop reads
        revert ih
        generalize read_encoded_intervals mem n_intervals fuel (i + 1)
          (sint8korr mem (pos + 8)) (pos + 16) = oq
        generalize add_encoded_intervals mem sidno n_intervals fuel (i + 1)
          (sint8korr mem (pos + 8)) r.2 r.1 (pos + 16) = od
        rintro (⟨⟨hok, hpos, hnf', hmax', hden'⟩⟩ | _)
        · refine Option.Rel.some ⟨hok, hpos, hnf', ?_, ?_⟩
          · rw [hmax', Gtid_set.get_max_sidno_add_gno_interval]
          · rw [hden', hden, covers_cons, Gtid_set.sidno_slice_union, Set.union_assoc]
        · exact Option.Rel.none
    · exact Option.Rel.some ⟨rfl, rfl, hs, rfl, by simp⟩

/-- A decoder run from the set `s₀` agrees with a reading: same flag, map and
    position, a set in normal form whose SIDNOs the map names, holding `s₀` and the
    GTIDs read. -/
structure Decoder.Reads (d : Decoder) (s₀ : Gtid_set) (q : Encoding_reader) : Prop where
  ok : d.ok = q.ok
  sid_map : d.sid_map = q.sid_map
  pos : d.pos = q.pos
  nf : d.set.NF
  fits : d.set.get_max_sidno ≤ d.sid_map.get_max_sidno
  denote : d.set.denote = s₀.denote ∪ items_denote q.items

/-- The SID loop reads what `read_encoded_sids` reads. Induction on the fuel. -/
theorem add_encoded_sids_reads (mem : Memory) (length n_sids : Nat) :
    ∀ (fuel : Nat) (i : UInt32) {d : Decoder} {s₀ : Gtid_set} {q : Encoding_reader},
      d.Reads s₀ q →
      Option.Rel (fun (r : Decoder) (q' : Encoding_reader) => r.Reads s₀ q')
        (add_encoded_sids mem length n_sids fuel i d) (read_encoded_sids mem length n_sids fuel i q)
  | 0, _, _, _, _, _ => Option.Rel.none
  | fuel + 1, i, d, s₀, q, h => by
    obtain ⟨hok, hm, hpos, hnf, hfits, hden⟩ := h
    simp only [add_encoded_sids, read_encoded_sids, hpos, hm]
    split
    · split
      · exact Option.Rel.some ⟨rfl, rfl, rfl, hnf, hm ▸ hfits, hden⟩
      · -- the SID is added to the map and its SIDNO to the set before the checks
        obtain ⟨h₁, h₂, -⟩ := q.sid_map.add_sid_get (Uuid.copy_from mem q.pos)
        have hgrow := (q.sid_map.grows_add_sid (Uuid.copy_from mem q.pos)).max_le
        have hm' := hm ▸ hfits
        have hfits' : (d.set.ensure_sidno (q.sid_map.add_sid (Uuid.copy_from mem q.pos)).2).get_max_sidno
            ≤ (q.sid_map.add_sid (Uuid.copy_from mem q.pos)).1.get_max_sidno := by
          rw [Gtid_set.get_max_sidno_ensure_sidno]
          omega
        have hden' : (d.set.ensure_sidno (q.sid_map.add_sid (Uuid.copy_from mem q.pos)).2).denote =
            s₀.denote ∪ items_denote q.items := by
          rw [Gtid_set.denote_ensure_sidno, hden]
        split
        · exact Option.Rel.some ⟨rfl, rfl, rfl, hnf.ensure_sidno, hfits', hden'⟩
        · have hin := add_encoded_intervals_spec mem (uint8korr mem (q.pos + 16)) h₁ fuel 0 0 0
            (d.set.ensure_sidno (q.sid_map.add_sid (Uuid.copy_from mem q.pos)).2) (q.pos + 24)
            hnf.ensure_sidno (by rw [Gtid_set.get_max_sidno_ensure_sidno]; omega) le_rfl
          revert hin
          generalize read_encoded_intervals mem (uint8korr mem (q.pos + 16)) fuel 0 0
            (q.pos + 24) = oq
          generalize add_encoded_intervals mem _ (uint8korr mem (q.pos + 16)) fuel 0 0 0 _
            (q.pos + 24) = od
          rintro (⟨⟨hok', hpos', hnf', hmax', hden''⟩⟩ | _)
          · rename_i qi r
            -- the decoder after this SID, whether or not the loop goes on
            have hstep : ∀ b : Bool, (⟨b, (q.sid_map.add_sid (Uuid.copy_from mem q.pos)).1,
                r.2.1, r.2.2⟩ : Decoder).Reads s₀
                ⟨b, (q.sid_map.add_sid (Uuid.copy_from mem q.pos)).1,
                  q.items ++ [((q.sid_map.add_sid (Uuid.copy_from mem q.pos)).2, qi.2.1)],
                  qi.2.2⟩ := fun b =>
              ⟨rfl, rfl, hpos', hnf', by rw [hmax']; exact hfits', by
                rw [hden'', hden', items_denote_append, Set.union_assoc]⟩
            simp only [hok']
            split
            · exact add_encoded_sids_reads mem length n_sids fuel (i + 1) (hstep true)
            · exact Option.Rel.some (hstep false)
          · exact Option.Rel.none
    · exact Option.Rel.some ⟨hok, hm, hpos, hnf, hfits, hden⟩

/-- A result of `add_gtid_encoding` from the set `s₀` agrees with a reading. -/
structure Encoding_result.Reads (r : Encoding_result) (s₀ : Gtid_set) (q : Encoding_reading) :
    Prop where
  status : r.status = q.status
  sid_map : r.sid_map = q.sid_map
  actual_length : r.actual_length = q.actual_length
  nf : r.set.NF
  fits : r.set.get_max_sidno ≤ r.sid_map.get_max_sidno
  denote : r.set.denote = s₀.denote ∪ q.denote

/-- **`add_gtid_encoding` adds what the encoding reads.** Whatever the memory holds,
    the decoder ends exactly when `read_encoding` does, with its status, map and
    `actual_length`; the set stays in normal form and gains exactly the GTIDs read,
    also when the decoder stops on an error. -/
theorem add_gtid_encoding_spec {s : Gtid_set} {m : Sid_map} (hs : s.NF)
    (hfit : s.get_max_sidno ≤ m.get_max_sidno) (mem : Memory) (length : Nat)
    (actual_length_p : Bool) (fuel : Nat) :
    Option.Rel (fun (r : Encoding_result) (q : Encoding_reading) => r.Reads s q)
      (s.add_gtid_encoding m mem length actual_length_p fuel)
      (read_encoding m mem length actual_length_p fuel) := by
  have h₀ : (⟨true, m, s, 8⟩ : Decoder).Reads s ⟨true, m, [], 8⟩ :=
    ⟨rfl, rfl, rfl, hs, hfit, by simp⟩
  simp only [Gtid_set.add_gtid_encoding, read_encoding]
  split
  · exact Option.Rel.some ⟨rfl, rfl, rfl, hs, hfit, by simp [Encoding_reading.denote]⟩
  · have hloop := add_encoded_sids_reads mem length (uint8korr mem 0) fuel 0 h₀
    revert hloop
    generalize add_encoded_sids mem length (uint8korr mem 0) fuel 0 ⟨true, m, s, 8⟩ = od
    generalize read_encoded_sids mem length (uint8korr mem 0) fuel 0 ⟨true, m, [], 8⟩ = oq
    rintro (⟨⟨hok, hm, hpos, hnf, hfits, hden⟩⟩ | _)
    · rename_i d q
      have hr : ∀ st al, (⟨st, d.sid_map, d.set, al⟩ : Encoding_result).Reads s
          ⟨st, q.sid_map, q.items, al⟩ := fun st al => ⟨rfl, hm, rfl, hnf, hfits, hden⟩
      simp only [hok, hpos]
      split
      · split
        · exact Option.Rel.some (hr _ _)
        · split
          · exact Option.Rel.some (hr _ _)
          · exact Option.Rel.some (hr _ _)
      · exact Option.Rel.some (hr _ _)
    · exact Option.Rel.none

/-! ## What decoding does to the map and the cache -/

/-- Reading an encoding only adds SIDs to the map. -/
theorem read_encoded_sids_grows (mem : Memory) (length n_sids : Nat) :
    ∀ (fuel : Nat) (i : UInt32) (q q' : Encoding_reader),
      read_encoded_sids mem length n_sids fuel i q = some q' → q.sid_map.Grows q'.sid_map
  | 0, _, _, _, h => absurd h (by simp [read_encoded_sids])
  | fuel + 1, i, q, q', h => by
    simp only [read_encoded_sids] at h
    have ha := q.sid_map.grows_add_sid (Uuid.copy_from mem q.pos)
    split at h
    · split at h
      · cases h
        exact Sid_map.Grows.refl _
      · split at h
        · cases h
          exact ha
        · split at h
          · cases h
          · split at h
            · exact ha.trans (read_encoded_sids_grows mem length n_sids fuel (i + 1) _ _ h)
            · cases h
              exact ha
    · cases h
      exact Sid_map.Grows.refl _

theorem read_encoding_grows {m : Sid_map} {mem : Memory} {length : Nat}
    {actual_length_p : Bool} {fuel : Nat} {q : Encoding_reading}
    (h : read_encoding m mem length actual_length_p fuel = some q) : m.Grows q.sid_map := by
  simp only [read_encoding] at h
  split at h
  · cases h
    exact Sid_map.Grows.refl m
  · split at h
    · cases h
    · rename_i r hr
      have hg := read_encoded_sids_grows mem length _ fuel 0 ⟨true, m, [], 8⟩ r hr
      split at h
      · split at h
        · cases h
          exact hg
        · split at h <;> (cases h; exact hg)
      · cases h
        exact hg

/-! ## What the decoder does to the set

The decoder changes the set only through `ensure_sidno` and `add_gno_interval`, so a
relation that the writes keep (`Gtid_set.Write_relation`) holds over every call of the
decoder: the cache (`Cache_step`) and the interval memory (`Sound_step`) are two such
relations. -/

namespace Gtid_set.Write_relation

variable {R : Gtid_set → Gtid_set → Prop} (hR : Write_relation R)
include hR

theorem add_encoded_intervals (mem : Memory) (sidno n_intervals : Nat) :
    ∀ (fuel : Nat) (i : UInt32) (last : Int) (k : Nat) (s : Gtid_set) (pos : Nat)
      (r : Bool × Gtid_set × Nat),
      Gtid.add_encoded_intervals mem sidno n_intervals fuel i last k s pos = some r → R s r.2.1
  | 0, _, _, _, _, _, _, h => absurd h (by simp [Gtid.add_encoded_intervals])
  | fuel + 1, i, last, k, s, pos, r, h => by
    simp only [Gtid.add_encoded_intervals] at h
    split at h
    · split at h
      · cases h
        exact hR.refl s
      · exact hR.trans (hR.add_gno_interval s _ _ _ _)
          (add_encoded_intervals mem sidno n_intervals fuel _ _ _ _ _ r h)
    · cases h
      exact hR.refl s

theorem add_encoded_sids (mem : Memory) (length n_sids : Nat) :
    ∀ (fuel : Nat) (i : UInt32) (d d' : Decoder),
      Gtid.add_encoded_sids mem length n_sids fuel i d = some d' → R d.set d'.set
  | 0, _, _, _, h => absurd h (by simp [Gtid.add_encoded_sids])
  | fuel + 1, i, d, d', h => by
    simp only [Gtid.add_encoded_sids] at h
    have he := hR.ensure_sidno d.set (d.sid_map.add_sid (Uuid.copy_from mem d.pos)).2
    split at h
    · split at h
      · cases h
        exact hR.refl _
      · split at h
        · cases h
          exact he
        · split at h
          · cases h
          · rename_i r hr
            have hi := hR.trans he (hR.add_encoded_intervals mem _ _ fuel 0 0 0 _ _ r hr)
            split at h
            · exact hR.trans hi (add_encoded_sids mem length n_sids fuel (i + 1) _ _ h)
            · cases h
              exact hi
    · cases h
      exact hR.refl _

theorem add_gtid_encoding {s : Gtid_set} {m : Sid_map} {mem : Memory}
    {length : Nat} {actual_length_p : Bool} {fuel : Nat} {r : Encoding_result}
    (h : s.add_gtid_encoding m mem length actual_length_p fuel = some r) : R s r.set := by
  simp only [Gtid_set.add_gtid_encoding] at h
  split at h
  · cases h
    exact hR.refl s
  · split at h
    · cases h
    · rename_i d hd
      have hc := hR.add_encoded_sids mem length _ fuel 0 ⟨true, m, s, 8⟩ d hd
      split at h
      · split at h
        · cases h
          exact hc
        · split at h <;> (cases h; exact hc)
      · cases h
        exact hc

end Gtid_set.Write_relation

/-! ## Reading the encoding of a set back -/

theorem toNat_succ_of_lt {i : UInt32} {n : Nat} (h : i.toNat < n) (hn : n < 2 ^ 32) :
    (i + 1).toNat = i.toNat + 1 := by
  rw [UInt32.toNat_add, UInt32.toNat_one]
  omega

/-- The intervals of a list in normal form read back from their bytes, each starting
    after `last` and the one before, until the counter reaches `n`. Induction on the
    list. -/
theorem read_encoded_intervals_bytes {mem : Memory} {n : Nat} (hn : n < 2 ^ 32)
    (l : List Interval) :
    ∀ (fuel : Nat) (i : UInt32) (last : Int) (pos : Nat),
      Normal l → (∀ iv ∈ l, last < iv.start) → i.toNat + l.length = n → l.length < fuel →
      Bytes.Holds mem pos (l.flatMap interval_bytes) →
      read_encoded_intervals mem n fuel i last pos = some (true, l, pos + 16 * l.length) := by
  induction l with
  | nil =>
    rintro (_ | fuel) i last pos - - hi hf -
    · exact absurd hf (Nat.not_lt_zero _)
    · simp only [List.length_nil, Nat.add_zero] at hi
      simp only [read_encoded_intervals, hi, lt_irrefl, if_false, List.length_nil, Nat.mul_zero,
        Nat.add_zero]
  | cons iv rest ih =>
    rintro (_ | fuel) i last pos hl hlast hi hf hh
    · exact absurd hf (Nat.not_lt_zero _)
    obtain ⟨a, b⟩ := iv
    have hb := hl.bounds List.mem_cons_self
    have hab := hl.sep.head_lt
    simp only [MAX_GNO] at hb
    dsimp only at hb hab
    rw [List.flatMap_cons, interval_bytes, List.append_assoc, holds_append, holds_append] at hh
    obtain ⟨ha, hb', hr⟩ := hh
    simp only [length_int8store] at hb' hr
    have hstart : sint8korr mem pos = a := sint8korr_of_holds (by omega) (by omega) ha
    have hend : sint8korr mem (pos + 8) = b := sint8korr_of_holds (by omega) (by omega) hb'
    have hlen : i.toNat < n := by simp only [List.length_cons] at hi; omega
    have hlast₀ : last < a := hlast ⟨a, b⟩ List.mem_cons_self
    -- the rest starts after this interval ends, as the normal form says
    have ih' := ih fuel (i + 1) b (pos + 16) hl.tail (fun iv h => hl.sep.hi_lt_lo h)
      (by rw [toNat_succ_of_lt hlen hn]; simp only [List.length_cons] at hi; omega)
      (by simp only [List.length_cons] at hf; omega)
      (by rw [show pos + 8 + 8 = pos + 16 by omega] at hr; exact hr)
    simp only [read_encoded_intervals, hstart, hend]
    rw [if_pos hlen, if_neg (by omega), ih']
    simp only [Option.map_some, List.length_cons, Option.some.injEq, Prod.mk.injEq, true_and]
    omega

/-- The blocks of the SIDNOs `L` read back, each SID mapping to its own SIDNO, as long
    as they fill the buffer to its end. Induction on `L`. -/
theorem read_encoded_sids_bytes {s : Gtid_set} {m : Sid_map} {mem : Memory}
    {length n_sids : Nat} (hs : s.NF) (hm : m.WF)
    (hsmall : ∀ j, 16 * (s.ivs j).length + 24 < 2 ^ 31) (hn : n_sids < 2 ^ 32)
    (hlen : length < 2 ^ 64) :
    ∀ (L : List Nat) (fuel : Nat) (i : UInt32) (q : Encoding_reader),
      q.ok = true → q.sid_map = m →
      (∀ j ∈ L, 1 ≤ j ∧ j ≤ m.get_max_sidno ∧ s.contains_sidno j = true) →
      i.toNat + L.length = n_sids → (L.flatMap (s.sidno_bytes m)).length < fuel →
      Bytes.Holds mem q.pos (L.flatMap (s.sidno_bytes m)) →
      q.pos + (L.flatMap (s.sidno_bytes m)).length = length →
      read_encoded_sids mem length n_sids fuel i q =
        some ⟨true, m, q.items ++ L.map (fun j => (j, s.ivs j)), length⟩
  | [], fuel + 1, i, ⟨ok, qm, items, pos⟩, hok, hqm, _, hi, _, _, hpos => by
    simp only at hok hqm
    simp only [List.length_nil, Nat.add_zero, List.flatMap_nil, Nat.add_zero] at hi hpos
    subst hok hqm hpos
    simp only [read_encoded_sids, hi, lt_irrefl, if_false, List.map_nil, List.append_nil]
  | j :: L, fuel + 1, i, q, hok, hqm, hL, hi, hf, hh, hpos => by
    obtain ⟨h₁, h₂, -⟩ := hL j List.mem_cons_self
    have hsj := hsmall j
    rw [List.flatMap_cons, holds_append] at hh
    rw [List.flatMap_cons, List.length_append, length_sidno_bytes] at hf hpos
    obtain ⟨hblock, hrest⟩ := hh
    unfold Gtid_set.sidno_bytes at hblock
    rw [holds_append, holds_append] at hblock
    simp only [List.length_append, (m.sidno_to_sid j).length_bytes, length_int8store] at hblock
    obtain ⟨⟨hsid, hcount⟩, hivs⟩ := hblock
    rw [length_sidno_bytes] at hrest
    have hsid' := Uuid.copy_from_of_holds hsid
    have hcount' : uint8korr mem (q.pos + 16) = (s.ivs j).length :=
      uint8korr_of_holds_nat (by omega) hcount
    have hadd := Sid_map.add_sid_sidno_to_sid hm h₁ h₂
    have hlt : i.toNat < n_sids := by simp only [List.length_cons] at hi; omega
    -- the two length checks pass: the block and the blocks after it are in the buffer
    have hc₁ : ¬size_sub length q.pos < 16 + 8 := by
      rw [size_sub_of_le (by omega) hlen]
      omega
    have hc₂ : ¬size_sub length (q.pos + 24) < 2 * 8 * (s.ivs j).length % 2 ^ 64 := by
      rw [size_sub_of_le (by omega) hlen, Nat.mod_eq_of_lt (by omega)]
      omega
    have hin := @read_encoded_intervals_bytes mem (s.ivs j).length (by omega) (s.ivs j) fuel 0 0
      (q.pos + 24) (hs.ivs j) (fun iv h => by have := (hs.ivs j).bounds h; omega)
      (by simp) (by omega) (by rw [show q.pos + (16 + 8) = q.pos + 24 by omega] at hivs; exact hivs)
    have ih := read_encoded_sids_bytes hs hm hsmall hn hlen L fuel (i + 1)
      ⟨true, m, q.items ++ [(j, s.ivs j)], q.pos + 24 + 16 * (s.ivs j).length⟩ rfl rfl
      (fun j' h => hL j' (List.mem_cons_of_mem _ h))
      (by rw [toNat_succ_of_lt hlt hn]; simp only [List.length_cons] at hi; omega)
      (by omega) (by
        rw [show q.pos + (24 + 16 * (s.ivs j).length) =
          q.pos + 24 + 16 * (s.ivs j).length by omega] at hrest
        exact hrest) (by dsimp only; omega)
    dsimp only at ih
    simp only [read_encoded_sids, hqm, hsid', hadd, hcount', if_pos hlt, hc₁, hc₂, if_false, hin,
      if_true, ih, List.map_cons, List.append_assoc, List.singleton_append]

/-- **The encoding of a set reads back**: status OK, the same map, and the set's lists
    in SID order, with no byte read past the encoding. The bounds are those of the
    source's types: an `rpl_sidno` counts the SIDs, and each block's size is an `int`. -/
theorem read_encoding_encode {s : Gtid_set} {m : Sid_map} (hs : s.NF) (hm : m.WF)
    (hmax : s.get_max_sidno ≤ m.get_max_sidno) (hsids : m.get_max_sidno < 2 ^ 31)
    (hsmall : ∀ j, 16 * (s.ivs j).length + 24 < 2 ^ 31) {mem : Memory}
    (h : Bytes.Holds mem 0 (s.encode m)) {fuel : Nat} (hf : (s.encode m).length < fuel) :
    read_encoding m mem (s.encode m).length false fuel =
      some ⟨RETURN_STATUS_OK, m, s.text_items m.sorted_sidnos, none⟩ := by
  obtain ⟨written, hw⟩ : ∃ w, w = m.sorted_sidnos.filter s.contains_sidno := ⟨_, rfl⟩
  have henc : s.encode m = int8store written.length ++ written.flatMap (s.sidno_bytes m) := by
    rw [hw]
    rfl
  have hitems : s.text_items m.sorted_sidnos = written.map fun j => (j, s.ivs j) := by
    rw [hw]
    rfl
  have htotal : (s.encode m).length = 8 + (written.flatMap (s.sidno_bytes m)).length := by
    rw [henc, List.length_append, length_int8store]
  have hlt64 : (s.encode m).length < 2 ^ 64 := by
    have hsum := sum_encoded_size_le s.intervals (s.intervals_small hsmall)
    have hlen : s.intervals.length = s.get_max_sidno := rfl
    rw [encode_length hm hmax]
    have : 2 ^ 31 * s.intervals.length ≤ 2 ^ 31 * 2 ^ 31 :=
      Nat.mul_le_mul_left _ (by omega)
    omega
  have hnum : written.length < 2 ^ 31 := by
    have hle : written.length ≤ m.sorted_sidnos.length := hw ▸ List.length_filter_le _ _
    have hsorted : m.sorted_sidnos.length = m.get_max_sidno := by simp [Sid_map.sorted_sidnos]
    omega
  rw [henc, holds_append, length_int8store] at h
  obtain ⟨hn, hb⟩ := h
  have hn' : uint8korr mem 0 = written.length := uint8korr_of_holds_nat (by omega) hn
  have hL : ∀ j ∈ written, 1 ≤ j ∧ j ≤ m.get_max_sidno ∧ s.contains_sidno j = true := by
    intro j hj
    rw [hw, List.mem_filter] at hj
    have := (mem_sorted_sidnos hm).mp hj.1
    exact ⟨this.1, this.2, hj.2⟩
  have hloop := read_encoded_sids_bytes hs hm hsmall (by omega) hlt64 written fuel 0
    ⟨true, m, [], 8⟩ rfl rfl hL (show (0 : UInt32).toNat + written.length = written.length by simp)
    (by omega) (by simpa using hb) (by dsimp only; omega)
  have hge : ¬(s.encode m).length < 8 := by omega
  simp only [read_encoding, if_neg hge, hn', hloop, if_true, Bool.false_eq_true, if_false,
    ne_eq, not_true_eq_false, List.nil_append, hitems]

/-- **Adding the encoding of a set** to any set over the same map succeeds and adds
    exactly its GTIDs. -/
theorem add_gtid_encoding_encode {s t : Gtid_set} {m : Sid_map} (hs : s.NF) (hm : m.WF)
    (hmax : s.get_max_sidno ≤ m.get_max_sidno) (hsids : m.get_max_sidno < 2 ^ 31)
    (hsmall : ∀ j, 16 * (s.ivs j).length + 24 < 2 ^ 31) (ht : t.NF)
    (htfit : t.get_max_sidno ≤ m.get_max_sidno) {mem : Memory} (h : Bytes.Holds mem 0 (s.encode m))
    {fuel : Nat} (hf : (s.encode m).length < fuel) :
    ∃ r, t.add_gtid_encoding m mem (s.encode m).length false fuel = some r ∧
      r.status = RETURN_STATUS_OK ∧ r.sid_map = m ∧ r.set.NF ∧
      r.set.denote = t.denote ∪ s.denote := by
  have hspec := add_gtid_encoding_spec ht htfit mem (s.encode m).length false fuel
  rw [read_encoding_encode hs hm hmax hsids hsmall h hf] at hspec
  revert hspec
  generalize t.add_gtid_encoding m mem (s.encode m).length false fuel = o
  rintro ⟨hr⟩
  rename_i r
  refine ⟨r, rfl, hr.status, hr.sid_map, hr.nf, ?_⟩
  rw [hr.denote]
  exact congrArg (t.denote ∪ ·) (items_denote_text_items hm hmax)

/-- **Round trip of the binary form.** For a set in normal form over a well-formed map
    that names its SIDNOs, within the bounds of the source's types (fewer SIDs than an
    `rpl_sidno` counts, and each block's size an `int`): `encode` writes exactly
    `get_encoded_length()` bytes; decoding them into an empty set over the same map,
    with their exact length and no `actual_length`, succeeds and rebuilds every
    interval list; and decoding them into any set over the map adds exactly the set's
    GTIDs. Any fuel above the length is enough, whatever follows the bytes in memory. -/
theorem encode_round_trip {s : Gtid_set} {m : Sid_map} (hs : s.NF) (hm : m.WF)
    (hmax : s.get_max_sidno ≤ m.get_max_sidno) (hsids : m.get_max_sidno < 2 ^ 31)
    (hsmall : ∀ j, 16 * (s.ivs j).length + 24 < 2 ^ 31) :
    (s.encode m).length = s.get_encoded_length ∧
      (∀ (mem : Memory) (fuel : Nat), Bytes.Holds mem 0 (s.encode m) → (s.encode m).length < fuel →
        ∃ r, Gtid_set.empty.add_gtid_encoding m mem (s.encode m).length false fuel = some r ∧
          r.status = RETURN_STATUS_OK ∧ r.sid_map = m ∧ ∀ j, r.set.ivs j = s.ivs j) ∧
      (∀ (t : Gtid_set) (mem : Memory) (fuel : Nat), t.NF → t.get_max_sidno ≤ m.get_max_sidno →
        Bytes.Holds mem 0 (s.encode m) → (s.encode m).length < fuel →
        ∃ r, t.add_gtid_encoding m mem (s.encode m).length false fuel = some r ∧
          r.status = RETURN_STATUS_OK ∧ r.sid_map = m ∧ r.set.denote = t.denote ∪ s.denote) := by
  refine ⟨(get_encoded_length_eq hm hmax hsids hsmall).symm, ?_, ?_⟩
  · intro mem fuel h hf
    obtain ⟨r, hr, hst, hmap, hnf, hden⟩ := add_gtid_encoding_encode hs hm hmax hsids hsmall
      Gtid_set.nf_empty (Nat.zero_le _) h hf
    -- the decoded set holds the same GTIDs, so it has the same lists
    refine ⟨r, hr, hst, hmap, Gtid_set.ivs_eq_of_denote_eq hnf hs ?_⟩
    rw [hden, Gtid_set.denote_empty, Set.empty_union]
  · intro t mem fuel ht htfit h hf
    obtain ⟨r, hr, hst, hmap, -, hden⟩ :=
      add_gtid_encoding_encode hs hm hmax hsids hsmall ht htfit h hf
    exact ⟨r, hr, hst, hmap, hden⟩

/-- The round trip for the set `{SID 1 : 1-2}`. -/
theorem encode_round_trip_one_interval :
    let s : Gtid_set := ⟨[[⟨1, 3⟩]], -1, none, Interval_memory.init.get_free_interval⟩
    let m : Sid_map := ⟨[Uuid.zero], [1]⟩
    (s.NF ∧ m.WF ∧ s.get_max_sidno ≤ m.get_max_sidno ∧ m.get_max_sidno < 2 ^ 31 ∧
      ∀ j, 16 * (s.ivs j).length + 24 < 2 ^ 31) ∧
    ((s.encode m).length = s.get_encoded_length ∧
      (∀ (mem : Memory) (fuel : Nat), Bytes.Holds mem 0 (s.encode m) → (s.encode m).length < fuel →
        ∃ r, Gtid_set.empty.add_gtid_encoding m mem (s.encode m).length false fuel = some r ∧
          r.status = RETURN_STATUS_OK ∧ r.sid_map = m ∧ ∀ j, r.set.ivs j = s.ivs j) ∧
      (∀ (t : Gtid_set) (mem : Memory) (fuel : Nat), t.NF → t.get_max_sidno ≤ m.get_max_sidno →
        Bytes.Holds mem 0 (s.encode m) → (s.encode m).length < fuel →
        ∃ r, t.add_gtid_encoding m mem (s.encode m).length false fuel = some r ∧
          r.status = RETURN_STATUS_OK ∧ r.sid_map = m ∧ r.set.denote = t.denote ∪ s.denote)) := by
  intro s m
  have hs : s.NF := by
    simp [s, Gtid_set.NF, Normal, IntervalList.Sep, MAX_GNO]
  have hm : m.WF := ⟨by decide, by decide⟩
  have hsmall : ∀ j, 16 * (s.ivs j).length + 24 < 2 ^ 31 := by
    intro j
    have : (s.ivs j).length ≤ 1 := by
      simp only [s, Gtid_set.ivs, List.getD_eq_getElem?_getD]
      rcases j - 1 with _ | k <;> simp
    omega
  have hmax : s.get_max_sidno ≤ m.get_max_sidno := by decide
  have hsids : m.get_max_sidno < 2 ^ 31 := by decide
  exact ⟨⟨hs, hm, hmax, hsids, hsmall⟩, encode_round_trip hs hm hmax hsids hsmall⟩

/-- The `n` intervals `[2i + 1, 2i + 2)`, `i < n`: the GNOs `1, 3, 5, …`. -/
def unit_intervals (n : Nat) : List Interval :=
  (List.range n).map fun i : Nat => ⟨2 * (i : Int) + 1, 2 * (i : Int) + 2⟩

@[simp] theorem length_unit_intervals (n : Nat) : (unit_intervals n).length = n := by
  simp [unit_intervals]

theorem unit_intervals_normal {n : Nat} (hn : 2 * (n : Int) ≤ MAX_GNO) :
    Normal (unit_intervals n) := by
  refine ⟨⟨?_, ?_⟩, ?_⟩
  · simp only [unit_intervals, List.forall_mem_map]
    intro i _
    omega
  · rw [unit_intervals, List.pairwise_map]
    exact (List.pairwise_lt_range).imp fun h => by dsimp only; omega
  · simp only [unit_intervals, List.forall_mem_map, List.mem_range]
    intro i hi
    constructor <;> omega

/-- A set whose SIDNO 1 holds `2 ^ 27` intervals: in `get_encoded_length`,
    `2 * 8 * get_n_intervals(1)` is `2 ^ 31`, one past `INT_MAX`. -/
def overflow_set : Gtid_set := ⟨[unit_intervals (2 ^ 27)], -1, none, Interval_memory.init⟩

/-- **`get_encoded_length` overflows** on a set of `2 ^ 27` intervals: the encoding
    has `2 ^ 31 + 32` bytes, and the `int` sum wraps, so the `size_t` result is
    `2 ^ 64 - 2 ^ 31 + 32`. -/
theorem get_encoded_length_overflow :
    overflow_set.NF ∧ (⟨[Uuid.zero], [1]⟩ : Sid_map).WF ∧
      overflow_set.get_max_sidno ≤ (⟨[Uuid.zero], [1]⟩ : Sid_map).get_max_sidno ∧
      (overflow_set.encode ⟨[Uuid.zero], [1]⟩).length = 2 ^ 31 + 32 ∧
      overflow_set.get_encoded_length = 2 ^ 64 - 2 ^ 31 + 32 := by
  have hne : (unit_intervals (2 ^ 27)).isEmpty = false := by
    rw [Bool.eq_false_iff]
    intro h
    have := congrArg List.length (List.isEmpty_iff.mp h)
    rw [length_unit_intervals, List.length_nil] at this
    exact absurd this (by norm_num)
  have hnf : overflow_set.NF := by
    intro l hl
    rw [overflow_set, List.mem_singleton] at hl
    rw [hl]
    exact unit_intervals_normal (by norm_num [MAX_GNO])
  have hm : (⟨[Uuid.zero], [1]⟩ : Sid_map).WF := ⟨by decide, by decide⟩
  have hmax : overflow_set.get_max_sidno ≤ (⟨[Uuid.zero], [1]⟩ : Sid_map).get_max_sidno :=
    le_refl 1
  have hivs : overflow_set.ivs 1 = unit_intervals (2 ^ 27) := by
    unfold Gtid_set.ivs overflow_set
    rw [Nat.sub_self, List.getD_cons_zero]
  refine ⟨hnf, hm, hmax, ?_, ?_⟩
  · have hint : overflow_set.intervals = [unit_intervals (2 ^ 27)] := rfl
    rw [encode_length hm hmax, hint, List.map_singleton, List.sum_singleton, encoded_size, hne,
      if_neg Bool.false_ne_true, length_unit_intervals]
    norm_num
  · have hc : overflow_set.contains_sidno 1 = true := by
      rw [Gtid_set.contains_sidno_eq, hivs, hne]
      rfl
    have hn : overflow_set.get_n_intervals 1 = to_int (2 ^ 27) := by
      rw [Gtid_set.get_n_intervals, hivs, length_unit_intervals]
      rfl
    have hone : overflow_set.get_max_sidno = 1 := rfl
    -- one round of the loop: `24 + to_int (2 ^ 31)` wraps to `24 - 2 ^ 31`
    rw [Gtid_set.get_encoded_length, hone, List.range'_one, List.foldl_cons, List.foldl_nil,
      if_pos hc, hn]
    decide

/-- A buffer of 32 bytes followed by the memory `after`: one SID, the zero UUID, with
    `n_intervals = 2 ^ 60` (little-endian, byte 31 is `0x10`). -/
def huge_count_encoding (after : Memory) : Memory :=
  fun p => if p = 0 then 1 else if p = 31 then 16 else if p < 32 then 0 else after p

/-- **A huge interval count is iterated past the buffer.** For the 32 bytes of
    `huge_count_encoding`, `2 * 8 * n_intervals` is `2 ^ 64`, which wraps to `0`, so the
    check that the intervals fit in the 8 bytes left passes, and the loop reads its
    first interval from bytes 32 to 47, past `length`. Two memories that agree on the
    buffer give two results: with zeros after it the first interval is rejected; with
    the interval `[1, 2)` after it that interval is added to the set before the next one
    (zeros) is rejected. -/
theorem add_gtid_encoding_reads_past_length :
    uint8korr (huge_count_encoding fun _ => 0) 24 = 2 ^ 60 ∧ 2 * 8 * 2 ^ 60 % 2 ^ 64 = 0 ∧
      (Gtid_set.empty.add_gtid_encoding Sid_map.empty (huge_count_encoding fun _ => 0)
          32 false 3).map (fun r => (r.status, r.set.ivs 1)) =
        some (RETURN_STATUS_REPORTED_ERROR, []) ∧
      (Gtid_set.empty.add_gtid_encoding Sid_map.empty
          (huge_count_encoding fun p => if p = 32 then 1 else if p = 40 then 2 else 0)
          32 false 3).map (fun r => (r.status, r.set.ivs 1)) =
        some (RETURN_STATUS_REPORTED_ERROR, [⟨1, 2⟩]) := by
  decide

end Gtid
end AliSql
