import Mathlib
import AliSql.Gtid.Set

/-!
# Reading GTID sets from text: `add_gtid_text` and `remove_gtid_text`

The text form of a GTID set is a comma-separated list of SID specifications, each a
UUID followed by any number of `:start` or `:start-end` items (`rpl_gtid_set.cc`,
`Gtid_set::add_gtid_text`):

    3E11FA47-71CA-11E1-9E33-C80AA9429562:1-5:11, 4D8B564F-03F4-4975-856A-0E65C3105328:7

White space may stand around every item, empty specifications (`,,`) are allowed, and
an item `a-b` adds the GNOs `a … b`, i.e. the interval `[a, b + 1)`. An item whose end
is before its start adds nothing. The parser adds each interval as soon as it has read
it, so a parse error half-way leaves the intervals read so far in the set.

## The model and its reading

`add_gtid_text` is modelled as the source writes it: an outer loop over SID
specifications (`add_gtid_text_loop`) and an inner loop over the intervals of one SID
(`add_text_intervals`), which adds them through one `Interval_iterator` under the
reset rule of `Gtid_set.iter_pos`. Both loops are structural in an explicit fuel
argument; `add_gtid_text` gives them one more than the length of the text, and each
round consumes at least one character.

What a text *means* does not depend on the set it is added to. `read_intervals` and
`read_text` state it: the same loops with the set left out, returning the intervals
read, SID by SID, with the `Sid_map` that reading the UUIDs builds. The two theorems
of this file connect the model to them:

* `add_text_intervals_spec`: the interval loop keeps the normal form, reads what
  `read_intervals` reads, and adds exactly the intervals it returns;
* `add_gtid_text_spec`: `add_gtid_text` returns the status, the `Sid_map` and the
  `ANONYMOUS` flag of `read_text`, keeps the normal form, and adds to the set exactly
  the GTIDs of the items read (`Text_reading.denote`) — whether or not it succeeds.

`remove_gtid_text` parses into a temporary set and removes it only on success
(`remove_gtid_text_spec`).

Before its loops, `add_gtid_text` gives a set that has no chunk yet one chunk of as many
intervals as the text has `':'` (`create_new_chunk(n_intervals)`). Every interval the text
adds takes at most one of them, so the loops never allocate again. A text with no `':'`
makes that chunk empty, and its free list points past the chunk's block
(`Gtid/Memory.lean`): the set's next `get_free_interval` overruns. The text loops keep a
sound memory sound (`sound_step_add_gtid_text`) when the set already has a chunk or the
text a `':'`.
-/

set_option autoImplicit false

namespace AliSql
namespace Gtid

open IntervalList Libc

/-- `enum_return_status`, with the values the modelled functions return. -/
inductive enum_return_status where
  | RETURN_STATUS_OK
  | RETURN_STATUS_REPORTED_ERROR
deriving DecidableEq, Repr

open enum_return_status

/-! ## Lexical helpers -/

/-- `SKIP_WHITESPACE()`. -/
def skip_whitespace (s : List Char) : List Char := s.dropWhile isspace

/-- `while (*s == ',') { s++; SKIP_WHITESPACE(); }`: from the first comma on, the
    loop consumes every comma and white space character. -/
def skip_commas (s : List Char) : List Char :=
  if peek s = ',' then s.tail.dropWhile fun c => c = ',' || isspace c else s

/-- `parse_gno`: the number `strtoll` reads, and the text after it; `-1`, with the
    text not advanced, for a negative value or `LLONG_MAX`. -/
def parse_gno (s : List Char) : Int × List Char :=
  let r := strtoll s
  if r.1 < 0 ∨ r.1 = LLONG_MAX then (-1, s) else r

/-- One item of the interval loop, from the character after its `':'`: the start,
    the end (`end + 1` of the text, or `start + 1` for a single GNO) and the text
    after the item; `none` on a parse error. -/
def parse_interval (s : List Char) : Option (Int × Int × List Char) :=
  let r := parse_gno s
  if r.1 ≤ 0 then none
  else
    let t := skip_whitespace r.2
    if peek t = '-' then
      let q := parse_gno t.tail
      if q.1 < 0 then none else some (r.1, q.1 + 1, skip_whitespace q.2)
    else some (r.1, r.1 + 1, t)

theorem parse_gno_lt (s : List Char) : (parse_gno s).1 < LLONG_MAX := by
  have h := strtoll_le s
  simp only [parse_gno]
  split
  · simp only [LLONG_MAX]
    omega
  · rename_i hne
    exact lt_of_le_of_ne h (fun heq => hne (Or.inr heq))

/-- The bounds of an item are GNOs: `1 ≤ start` and `end ≤ MAX_GNO`. -/
theorem parse_interval_bounds {s rest : List Char} {start e : Int}
    (h : parse_interval s = some (start, e, rest)) : 1 ≤ start ∧ e ≤ MAX_GNO := by
  have hs := parse_gno_lt s
  have he := parse_gno_lt (skip_whitespace (parse_gno s).2).tail
  unfold parse_interval at h
  simp only [MAX_GNO, LLONG_MAX] at *
  split_ifs at h with h₁ h₂ h₃
  · simp only [Option.some.injEq, Prod.mk.injEq] at h
    omega
  · simp only [Option.some.injEq, Prod.mk.injEq] at h
    omega

/-! ## The interval loop -/

/-- The interval loop of `add_gtid_text` for one SID (`while (*s == ':')`), with the
    iterator at position `k`: the set, and the text after the loop (`none` on a parse
    error, the set keeping what was added before it). -/
def add_text_intervals (sidno : Nat) : Nat → Gtid_set → Nat → List Char →
    Gtid_set × Option (List Char)
  | 0, s, _, t => (s, some t)
  | fuel + 1, s, k, t =>
    if peek t = ':' then
      match parse_interval t.tail with
      | none => (s, none)
      | some (start, e, t) =>
        if e > start then
          let r := s.add_gno_interval sidno (Gtid_set.iter_pos (s.ivs sidno) k start) start e
          add_text_intervals sidno fuel r.1 r.2 t
        else add_text_intervals sidno fuel s k t
    else (s, some t)

/-- What the interval loop reads: the intervals it adds, and the text after the loop
    (`none` on a parse error). -/
def read_intervals : Nat → List Char → List Interval × Option (List Char)
  | 0, t => ([], some t)
  | fuel + 1, t =>
    if peek t = ':' then
      match parse_interval t.tail with
      | none => ([], none)
      | some (start, e, t) =>
        let r := read_intervals fuel t
        (if e > start then ⟨start, e⟩ :: r.1 else r.1, r.2)
    else ([], some t)

/-- **The interval loop adds what it reads.** For any text and any iterator position,
    the loop ends where `read_intervals` ends, keeps the normal form, and adds
    exactly the intervals `read_intervals` returns. Induction on the fuel; each added
    interval is `add_gno_interval_iter_pos`. -/
theorem add_text_intervals_spec (sidno : Nat) :
    ∀ (fuel : Nat) (t : List Char) {s : Gtid_set} (k : Nat), s.NF → 1 ≤ sidno →
      sidno ≤ s.get_max_sidno →
      (add_text_intervals sidno fuel s k t).2 = (read_intervals fuel t).2 ∧
        (add_text_intervals sidno fuel s k t).1.NF ∧
        (add_text_intervals sidno fuel s k t).1.get_max_sidno = s.get_max_sidno ∧
        (add_text_intervals sidno fuel s k t).1.denote =
          s.denote ∪ {p | p.1 = sidno ∧ p.2 ∈ covers Interval.start Interval.end
            (read_intervals fuel t).1}
  | 0, t, s, k, hs, _, _ => ⟨rfl, hs, rfl, by simp [add_text_intervals, read_intervals]⟩
  | fuel + 1, t, s, k, hs, h₁, h₂ => by
    by_cases hc : peek t = ':'
    · cases hp : parse_interval t.tail with
      | none =>
        have hm : add_text_intervals sidno (fuel + 1) s k t = (s, none) := by
          simp only [add_text_intervals, hc, if_true, hp]
        have hr : read_intervals (fuel + 1) t = ([], none) := by
          simp only [read_intervals, hc, if_true, hp]
        rw [hm, hr]
        exact ⟨rfl, hs, rfl, by simp⟩
      | some v =>
        obtain ⟨start, e, t'⟩ := v
        obtain ⟨hb, he⟩ := parse_interval_bounds hp
        by_cases hse : e > start
        · obtain ⟨hnf, hden⟩ := Gtid_set.add_gno_interval_iter_pos (k := k) hs h₁ h₂ hb hse he
          obtain ⟨hrest, hnf', hmax', hden'⟩ := add_text_intervals_spec sidno fuel t'
            (s := (s.add_gno_interval sidno (Gtid_set.iter_pos (s.ivs sidno) k start) start e).1)
            (s.add_gno_interval sidno (Gtid_set.iter_pos (s.ivs sidno) k start) start e).2 hnf h₁
            (by rw [Gtid_set.get_max_sidno_add_gno_interval]; exact h₂)
          simp only [add_text_intervals, read_intervals, hc, if_true, hp, hse]
          refine ⟨hrest, hnf', by rw [hmax', Gtid_set.get_max_sidno_add_gno_interval], ?_⟩
          rw [hden', hden, covers_cons]
          ext ⟨j, g⟩
          simp only [Set.mem_union, Set.mem_ofPred_eq]
          tauto
        · obtain ⟨hrest, hnf', hmax', hden'⟩ := add_text_intervals_spec sidno fuel t' k hs h₁ h₂
          simp only [add_text_intervals, read_intervals, hc, if_true, hp, hse, if_false]
          exact ⟨hrest, hnf', hmax', hden'⟩
    · have hm : add_text_intervals sidno (fuel + 1) s k t = (s, some t) := by
        simp only [add_text_intervals, hc, if_false]
      have hr : read_intervals (fuel + 1) t = ([], some t) := by
        simp only [read_intervals, hc, if_false]
      rw [hm, hr]
      exact ⟨rfl, hs, rfl, by simp⟩

/-! ## The loop over SID specifications -/

/-- What `add_gtid_text` leaves: its status, the shared `Sid_map`, the set, and the
    value it writes to `*anonymous`. -/
structure Text_result where
  status : enum_return_status
  sid_map : Sid_map
  set : Gtid_set
  anonymous : Bool

/-- One SID specification, from its first character: `ANONYMOUS` (when the caller
    passed an `anonymous` pointer), or a UUID, which `add_sid` maps to a SIDNO, and
    its intervals. The text after it, or `none` on a parse error. -/
def add_sid_spec (anonymous_p : Bool) (fuel : Nat) (r : Text_result) (t : List Char) :
    Text_result × Option (List Char) :=
  if anonymous_p ∧ t.take 9 = "ANONYMOUS".toList then
    ({ r with anonymous := true }, some (t.drop 9))
  else
    match Uuid.parse t with
    | none => (r, none)
    | some sid =>
      let a := r.sid_map.add_sid sid
      let q := add_text_intervals a.2 fuel (r.set.ensure_sidno a.2) 0
        (skip_whitespace (t.drop TEXT_LENGTH))
      ({ r with sid_map := a.1, set := q.1 }, q.2)

/-- The main loop of `add_gtid_text`: skip commas, stop at the end of the text, read
    one SID specification, and insist on a comma or the end after it. -/
def add_gtid_text_loop (anonymous_p : Bool) : Nat → Text_result → List Char → Text_result
  | 0, r, _ => { r with status := RETURN_STATUS_REPORTED_ERROR }
  | fuel + 1, r, t =>
    let t := skip_commas t
    if peek t = '\x00' then r
    else
      let q := add_sid_spec anonymous_p fuel r t
      match q.2 with
      | none => { q.1 with status := RETURN_STATUS_REPORTED_ERROR }
      | some t =>
        if peek t ≠ ',' ∧ peek t ≠ '\x00' then { q.1 with status := RETURN_STATUS_REPORTED_ERROR }
        else add_gtid_text_loop anonymous_p fuel q.1 t

/-- The number of `':'` that `add_gtid_text` counts in the text: up to its terminating NUL. -/
def count_colons (t : List Char) : Nat := (t.takeWhile (· ≠ '\x00')).count ':'

/-- `Gtid_set::add_gtid_text(text, anonymous)`, over the shared `Sid_map` `m`;
    `anonymous_p` says whether the caller passed an `anonymous` pointer. A set with no
    chunk first gets one, of as many intervals as the text has `':'`. -/
def Gtid_set.add_gtid_text (s : Gtid_set) (m : Sid_map) (text : List Char)
    (anonymous_p : Bool) : Text_result :=
  let t := skip_whitespace text
  if peek t = '\x00' then ⟨RETURN_STATUS_OK, m, s, false⟩
  else
    let s := if s.interval_memory.chunks then s
      else s.with_memory (s.interval_memory.create_new_chunk (count_colons t))
    add_gtid_text_loop anonymous_p (t.length + 1) ⟨RETURN_STATUS_OK, m, s, false⟩ t

/-- `Gtid_set::remove_gtid_text`: parse into a temporary set over the same `Sid_map`,
    and remove it only if the text parsed. -/
def Gtid_set.remove_gtid_text (s : Gtid_set) (m : Sid_map) (text : List Char) :
    enum_return_status × Sid_map × Gtid_set :=
  let r := Gtid_set.empty.add_gtid_text m text false
  match r.status with
  | RETURN_STATUS_OK => (RETURN_STATUS_OK, r.sid_map, s.remove_gtid_set r.set)
  | RETURN_STATUS_REPORTED_ERROR => (RETURN_STATUS_REPORTED_ERROR, r.sid_map, s)

/-! ## What a text reads -/

/-- What reading a text gives, apart from any set: the status, the `Sid_map`, the
    `ANONYMOUS` flag and the intervals read, SIDNO by SIDNO. -/
structure Text_reading where
  status : enum_return_status
  sid_map : Sid_map
  anonymous : Bool
  items : List (Nat × List Interval)

/-- `add_sid_spec` with the set left out. -/
def read_sid_spec (anonymous_p : Bool) (fuel : Nat) (r : Text_reading) (t : List Char) :
    Text_reading × Option (List Char) :=
  if anonymous_p ∧ t.take 9 = "ANONYMOUS".toList then
    ({ r with anonymous := true }, some (t.drop 9))
  else
    match Uuid.parse t with
    | none => (r, none)
    | some sid =>
      let a := r.sid_map.add_sid sid
      let q := read_intervals fuel (skip_whitespace (t.drop TEXT_LENGTH))
      ({ r with sid_map := a.1, items := r.items ++ [(a.2, q.1)] }, q.2)

/-- `add_gtid_text_loop` with the set left out. -/
def read_text_loop (anonymous_p : Bool) : Nat → Text_reading → List Char → Text_reading
  | 0, r, _ => { r with status := RETURN_STATUS_REPORTED_ERROR }
  | fuel + 1, r, t =>
    let t := skip_commas t
    if peek t = '\x00' then r
    else
      let q := read_sid_spec anonymous_p fuel r t
      match q.2 with
      | none => { q.1 with status := RETURN_STATUS_REPORTED_ERROR }
      | some t =>
        if peek t ≠ ',' ∧ peek t ≠ '\x00' then { q.1 with status := RETURN_STATUS_REPORTED_ERROR }
        else read_text_loop anonymous_p fuel q.1 t

/-- What `add_gtid_text` reads from `text` over the map `m`. -/
def read_text (m : Sid_map) (text : List Char) (anonymous_p : Bool) : Text_reading :=
  let t := skip_whitespace text
  let r : Text_reading := ⟨RETURN_STATUS_OK, m, false, []⟩
  if peek t = '\x00' then r else read_text_loop anonymous_p (t.length + 1) r t

/-- The GTIDs a list of items names: SIDNO and the GNOs of its intervals. -/
def items_denote (items : List (Nat × List Interval)) : Set (Nat × Int) :=
  {p | ∃ it ∈ items, p.1 = it.1 ∧ p.2 ∈ covers Interval.start Interval.end it.2}

/-- The GTIDs a reading lists. -/
def Text_reading.denote (q : Text_reading) : Set (Nat × Int) := items_denote q.items

@[simp] theorem items_denote_nil : items_denote [] = ∅ := by
  simp [items_denote]

theorem items_denote_append (items : List (Nat × List Interval)) (it : Nat × List Interval) :
    items_denote (items ++ [it]) =
      items_denote items ∪ {p | p.1 = it.1 ∧ p.2 ∈ covers Interval.start Interval.end it.2} := by
  ext p
  simp only [items_denote, List.mem_append, List.mem_singleton, Set.mem_union,
    Set.mem_ofPred_eq]
  constructor
  · rintro ⟨it', hit | rfl, h⟩
    · exact Or.inl ⟨it', hit, h⟩
    · exact Or.inr h
  · rintro (⟨it', hit, h⟩ | h)
    · exact ⟨it', Or.inl hit, h⟩
    · exact ⟨it, Or.inr rfl, h⟩

/-- Reading a SID specification only adds SIDs to the map. -/
theorem read_sid_spec_grows (anonymous_p : Bool) (fuel : Nat) (q : Text_reading)
    (t : List Char) : q.sid_map.Grows (read_sid_spec anonymous_p fuel q t).1.sid_map := by
  unfold read_sid_spec
  split
  · exact Sid_map.Grows.refl _
  · split
    · exact Sid_map.Grows.refl _
    · exact q.sid_map.grows_add_sid _

theorem read_text_loop_grows (anonymous_p : Bool) :
    ∀ (fuel : Nat) (q : Text_reading) (t : List Char),
      q.sid_map.Grows (read_text_loop anonymous_p fuel q t).sid_map
  | 0, q, _ => Sid_map.Grows.refl _
  | fuel + 1, q, t => by
    simp only [read_text_loop]
    split
    · exact Sid_map.Grows.refl _
    · split
      · exact read_sid_spec_grows _ _ _ _
      · split
        · exact read_sid_spec_grows _ _ _ _
        · exact (read_sid_spec_grows _ _ _ _).trans (read_text_loop_grows anonymous_p fuel _ _)

/-- **Reading a text only adds SIDs to the map.** -/
theorem read_text_grows (m : Sid_map) (text : List Char) (anonymous_p : Bool) :
    m.Grows (read_text m text anonymous_p).sid_map := by
  simp only [read_text]
  split
  · exact Sid_map.Grows.refl m
  · exact read_text_loop_grows _ _ ⟨RETURN_STATUS_OK, m, false, []⟩ _

/-- A run of `add_gtid_text` from the set `s₀` agrees with a reading: same status,
    map and flag, a set in normal form that holds `s₀` and the GTIDs read. -/
structure Text_result.Reads (r : Text_result) (s₀ : Gtid_set) (q : Text_reading) : Prop where
  status : r.status = q.status
  sid_map : r.sid_map = q.sid_map
  anonymous : r.anonymous = q.anonymous
  nf : r.set.NF
  fits : r.set.get_max_sidno ≤ r.sid_map.get_max_sidno
  denote : r.set.denote = s₀.denote ∪ q.denote

theorem Text_result.Reads.with_status {r : Text_result} {s₀ : Gtid_set} {q : Text_reading}
    (h : r.Reads s₀ q) (st : enum_return_status) :
    ({ r with status := st } : Text_result).Reads s₀ { q with status := st } :=
  ⟨rfl, h.sid_map, h.anonymous, h.nf, h.fits, h.denote⟩

/-- One SID specification reads what `read_sid_spec` reads. -/
theorem add_sid_spec_reads (anonymous_p : Bool) (fuel : Nat) {r : Text_result}
    {s₀ : Gtid_set} {q : Text_reading} (h : r.Reads s₀ q) (t : List Char) :
    (add_sid_spec anonymous_p fuel r t).2 = (read_sid_spec anonymous_p fuel q t).2 ∧
      (add_sid_spec anonymous_p fuel r t).1.Reads s₀ (read_sid_spec anonymous_p fuel q t).1 := by
  unfold add_sid_spec read_sid_spec
  split
  · exact ⟨rfl, ⟨h.status, h.sid_map, rfl, h.nf, h.fits, h.denote⟩⟩
  · cases hu : Uuid.parse t with
    | none => exact ⟨rfl, h⟩
    | some sid =>
      simp only [← h.sid_map]
      obtain ⟨h₁, h₂, -⟩ := r.sid_map.add_sid_get sid
      have hgrow := (r.sid_map.grows_add_sid sid).max_le
      have hmax : (r.sid_map.add_sid sid).2 ≤
          (r.set.ensure_sidno (r.sid_map.add_sid sid).2).get_max_sidno := by
        rw [Gtid_set.get_max_sidno_ensure_sidno]
        omega
      obtain ⟨hrest, hnf, hmax', hden⟩ := add_text_intervals_spec (r.sid_map.add_sid sid).2 fuel
        (skip_whitespace (t.drop TEXT_LENGTH)) 0 h.nf.ensure_sidno h₁ hmax
      -- the SIDNO `add_sid` returns is one of the map, and the map only grew
      have hfits : (add_text_intervals (r.sid_map.add_sid sid).2 fuel
          (r.set.ensure_sidno (r.sid_map.add_sid sid).2) 0
          (skip_whitespace (t.drop TEXT_LENGTH))).1.get_max_sidno ≤
          (r.sid_map.add_sid sid).1.get_max_sidno := by
        rw [hmax', Gtid_set.get_max_sidno_ensure_sidno]
        have := h.fits
        omega
      refine ⟨hrest, ⟨h.status, rfl, h.anonymous, hnf, hfits, ?_⟩⟩
      rw [hden, Gtid_set.denote_ensure_sidno, h.denote, Set.union_assoc]
      simp only [Text_reading.denote, items_denote_append]

/-- The loop over SID specifications reads what `read_text_loop` reads. Induction on
    the fuel. -/
theorem add_gtid_text_loop_reads (anonymous_p : Bool) :
    ∀ (fuel : Nat) {r : Text_result} {s₀ : Gtid_set} {q : Text_reading}, r.Reads s₀ q →
      ∀ t : List Char,
        (add_gtid_text_loop anonymous_p fuel r t).Reads s₀ (read_text_loop anonymous_p fuel q t)
  | 0, _, _, _, h, _ => h.with_status _
  | fuel + 1, r, s₀, q, h, t => by
    obtain ⟨hrest, hstep⟩ := add_sid_spec_reads anonymous_p fuel h (skip_commas t)
    simp only [add_gtid_text_loop, read_text_loop]
    split
    · exact h
    · rw [hrest]
      split
      · exact hstep.with_status _
      · split
        · exact hstep.with_status _
        · exact add_gtid_text_loop_reads anonymous_p fuel hstep _

/-- **`add_gtid_text` adds what the text reads.** Whatever the text, the status, the
    `Sid_map` and the `ANONYMOUS` flag are those of `read_text`, which does not look
    at the set; the set stays in normal form and gains exactly the GTIDs read — on a
    parse error too, where they are the ones read before it. -/
theorem add_gtid_text_spec {s : Gtid_set} {m : Sid_map} (hs : s.NF)
    (hfit : s.get_max_sidno ≤ m.get_max_sidno) (text : List Char) (anonymous_p : Bool) :
    (s.add_gtid_text m text anonymous_p).Reads s (read_text m text anonymous_p) := by
  -- the chunk allocated first changes the memory only
  have h₀ : ∀ s' : Gtid_set, s'.intervals = s.intervals →
      (⟨RETURN_STATUS_OK, m, s', false⟩ : Text_result).Reads s ⟨RETURN_STATUS_OK, m, false, []⟩ :=
    fun s' hs' => ⟨rfl, rfl, rfl, fun l hl => hs l (hs' ▸ hl),
      by simpa [Gtid_set.get_max_sidno, hs'] using hfit,
      by simp [Text_reading.denote, Gtid_set.denote, Gtid_set.ivs, hs']⟩
  simp only [Gtid_set.add_gtid_text, read_text]
  split
  · exact h₀ s rfl
  · refine add_gtid_text_loop_reads anonymous_p _ (h₀ _ ?_) _
    split <;> rfl

/-- **`remove_gtid_text` removes what the text reads**, and nothing when the text
    does not parse; the `Sid_map` keeps the SIDs read either way. -/
theorem remove_gtid_text_spec {s : Gtid_set} (hs : s.NF) (m : Sid_map) (text : List Char) :
    (s.remove_gtid_text m text).1 = (read_text m text false).status ∧
      (s.remove_gtid_text m text).2.1 = (read_text m text false).sid_map ∧
      (s.remove_gtid_text m text).2.2.NF ∧
      (s.remove_gtid_text m text).2.2.get_max_sidno = s.get_max_sidno ∧
      (s.remove_gtid_text m text).2.2.denote =
        if (read_text m text false).status = RETURN_STATUS_OK then
          s.denote \ (read_text m text false).denote
        else s.denote := by
  have h := add_gtid_text_spec Gtid_set.nf_empty (Nat.zero_le m.get_max_sidno) text false
  simp only [Gtid_set.remove_gtid_text]
  rw [h.status]
  cases hst : (read_text m text false).status with
  | RETURN_STATUS_OK =>
    obtain ⟨hnf, hmax, hden⟩ := Gtid_set.remove_gtid_set_spec hs h.nf
    rw [h.denote, Gtid_set.denote_empty, Set.empty_union] at hden
    exact ⟨rfl, h.sid_map, hnf, hmax, by simpa using hden⟩
  | RETURN_STATUS_REPORTED_ERROR => exact ⟨rfl, h.sid_map, hs, rfl, by simp⟩

/-! ## Reading a text again

A caller that adds a text and later removes the same text (`add_executed_gtids`, then
`remove_executed_gtids`) parses it twice, the second time over the map the first
parse grew. Every UUID is then already in the map, so the second parse reads the same
items and adds no SID. -/

/-- One SID specification, read over a map that its own reading grows into, reads the
    same and leaves that map. -/
theorem read_sid_spec_regrow (anonymous_p : Bool) (fuel : Nat) (q : Text_reading)
    (t : List Char) {M : Sid_map} (hM : M.WF)
    (h : (read_sid_spec anonymous_p fuel q t).1.sid_map.Grows M) :
    read_sid_spec anonymous_p fuel { q with sid_map := M } t =
      ({ (read_sid_spec anonymous_p fuel q t).1 with sid_map := M },
        (read_sid_spec anonymous_p fuel q t).2) := by
  unfold read_sid_spec at h ⊢
  by_cases ha : anonymous_p = true ∧ t.take 9 = "ANONYMOUS".toList
  · simp only [ha, and_self, if_true]
  · simp only [ha, if_false] at h ⊢
    cases hu : Uuid.parse t with
    | none => rfl
    | some sid =>
      simp only [hu] at h ⊢
      rw [Sid_map.add_sid_of_grows hM h]

/-- The loop over SID specifications, over a map its own reading grows into. Induction
    on the fuel; the map of each round grows into the final one. -/
theorem read_text_loop_regrow (anonymous_p : Bool) :
    ∀ (fuel : Nat) (q : Text_reading) (t : List Char) {M : Sid_map}, M.WF →
      (read_text_loop anonymous_p fuel q t).sid_map.Grows M →
      read_text_loop anonymous_p fuel { q with sid_map := M } t =
        { read_text_loop anonymous_p fuel q t with sid_map := M }
  | 0, _, _, _, _, _ => rfl
  | fuel + 1, q, t, M, hM, h => by
    simp only [read_text_loop] at h ⊢
    by_cases hpeek : peek (skip_commas t) = '\x00'
    · simp only [hpeek, if_true]
    · simp only [hpeek, if_false] at h ⊢
      have hgrow : (read_sid_spec anonymous_p fuel q (skip_commas t)).1.sid_map.Grows M := by
        cases hq : (read_sid_spec anonymous_p fuel q (skip_commas t)).2 with
        | none => simpa only [hq] using h
        | some t' =>
          simp only [hq] at h
          split at h
          · exact h
          · exact (read_text_loop_grows anonymous_p fuel _ _).trans h
      rw [read_sid_spec_regrow anonymous_p fuel q _ hM hgrow]
      cases hq : (read_sid_spec anonymous_p fuel q (skip_commas t)).2 with
      | none => rfl
      | some t' =>
        simp only [hq] at h ⊢
        by_cases hc : peek t' ≠ ',' ∧ peek t' ≠ '\x00'
        · rw [if_pos hc, if_pos hc]
        · rw [if_neg hc] at h
          rw [if_neg hc, if_neg hc]
          exact read_text_loop_regrow anonymous_p fuel _ _ hM h

/-- **Reading a text again over the map it built** reads the same: same status, same
    items, and no SID added. -/
theorem read_text_again {m : Sid_map} (hm : m.WF) (text : List Char) (anonymous_p : Bool) :
    read_text (read_text m text anonymous_p).sid_map text anonymous_p =
      read_text m text anonymous_p := by
  have hM := (read_text_grows m text anonymous_p).wf hm
  unfold read_text at hM ⊢
  by_cases hpeek : peek (skip_whitespace text) = '\x00'
  · simp only [hpeek, if_true]
  · simp only [hpeek, if_false] at hM ⊢
    exact read_text_loop_regrow anonymous_p _ ⟨RETURN_STATUS_OK, m, false, []⟩ _ hM
      (Sid_map.Grows.refl _)

/-! ## Relations over a text

The text parsers write the set only through `ensure_sidno`, `add_gno_interval` and
`remove_gtid_set`, so a relation that the three writes keep (`Gtid_set.Write_relation`)
holds between the set before and after any text. `add_gtid_text` alone allocates first
(`create_new_chunk`), which each relation proves on its own. -/

namespace Gtid_set.Write_relation

variable {R : Gtid_set → Gtid_set → Prop} (hR : Write_relation R)
include hR

theorem add_text_intervals (sidno : Nat) :
    ∀ (fuel : Nat) (s : Gtid_set) (k : Nat) (t : List Char),
      R s (Gtid.add_text_intervals sidno fuel s k t).1
  | 0, s, _, _ => hR.refl s
  | fuel + 1, s, k, t => by
    simp only [Gtid.add_text_intervals]
    split
    · split
      · exact hR.refl s
      · split
        · exact hR.trans (hR.add_gno_interval s _ _ _ _) (add_text_intervals sidno fuel _ _ _)
        · exact add_text_intervals sidno fuel s k _
    · exact hR.refl s

theorem add_sid_spec (anonymous_p : Bool) (fuel : Nat) (r : Text_result) (t : List Char) :
    R r.set (Gtid.add_sid_spec anonymous_p fuel r t).1.set := by
  simp only [Gtid.add_sid_spec]
  split
  · exact hR.refl _
  · split
    · exact hR.refl _
    · exact hR.trans (hR.ensure_sidno _ _) (hR.add_text_intervals _ _ _ _ _)

theorem add_gtid_text_loop (anonymous_p : Bool) :
    ∀ (fuel : Nat) (r : Text_result) (t : List Char),
      R r.set (Gtid.add_gtid_text_loop anonymous_p fuel r t).set
  | 0, r, _ => hR.refl _
  | fuel + 1, r, t => by
    simp only [Gtid.add_gtid_text_loop]
    split
    · exact hR.refl _
    · split
      · exact hR.add_sid_spec _ _ _ _
      · split
        · exact hR.add_sid_spec _ _ _ _
        · exact hR.trans (hR.add_sid_spec _ _ _ _) (add_gtid_text_loop anonymous_p fuel _ _)

theorem remove_gtid_text (s : Gtid_set) (m : Sid_map) (text : List Char) :
    R s (s.remove_gtid_text m text).2.2 := by
  simp only [Gtid_set.remove_gtid_text]
  split
  · exact hR.remove_gtid_set s _
  · exact hR.refl s

end Gtid_set.Write_relation

/-! ## The interval memory over a text -/

section Memory

open Gtid_set

/-- `add_gtid_text` allocates no empty chunk: the set has a chunk already, or the text is
    blank, or it has a `':'`. -/
def Gtid_set.no_empty_chunk (s : Gtid_set) (text : List Char) : Prop :=
  s.interval_memory.chunks = true ∨ peek (skip_whitespace text) = '\x00' ∨
    0 < count_colons (skip_whitespace text)

/-- **`add_gtid_text` keeps the memory sound** when it allocates no empty chunk. -/
theorem sound_step_add_gtid_text {s : Gtid_set} {text : List Char} (h : s.no_empty_chunk text)
    (m : Sid_map) (anonymous_p : Bool) : Sound_step s (s.add_gtid_text m text anonymous_p).set := by
  simp only [Gtid_set.add_gtid_text]
  split
  · exact Sound_step.refl s
  · rename_i hblank
    refine Sound_step.trans ?_ (Sound_step.write_relation.add_gtid_text_loop _ _ _ _)
    dsimp only
    split
    · exact Sound_step.refl s
    · rename_i hchunks
      have hcolon : 0 < count_colons (skip_whitespace text) := by
        rcases h with h | h | h
        · exact absurd h hchunks
        · exact absurd h hblank
        · exact h
      exact fun hs => hs.create_new_chunk hcolon

end Memory

end Gtid
end AliSql
