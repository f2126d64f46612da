import Mathlib
import AliSql.Gtid.Interval

/-!
# The interval memory of a `Gtid_set`: chunks and the free list

A `Gtid_set` does not allocate its `Interval`s one at a time (`rpl_gtid_set.cc`). It mallocs
them in chunks (`Interval_chunk`: a `next` pointer and an array of intervals, `rpl_gtid.h`)
and keeps those not in use in a singly linked free list, `free_intervals`.
`get_free_interval` takes the head of that list, after allocating a chunk of
`CHUNK_GROW_SIZE` intervals when the list is empty; `ivit.remove` gives an interval back with
`put_free_interval`; `clear` links every interval list of the set in at the end of the free
list.

`create_new_chunk(size)` mallocs `sizeof(Interval_chunk) + sizeof(Interval) * (size - 1)`
bytes and links its `size` intervals in front of the free list
(`add_interval_memory_lock_taken`). `add_gtid_text` calls it once, with the number of `':'`
in the text, when the set has no chunk yet. A text with no `':'` (a UUID alone, or only
commas) gives `size = 0`. The block is then the 8 bytes of the chunk's `next` field, the
loop links nothing, `ivs[-1].next` is that same `next` field, and the free list becomes
`&ivs[0]`, the first byte past the block. The next `get_free_interval` hands out that
address and reads its `next`, and its caller writes the new interval's bounds there: both
out of bounds of the block.

## The model

`free_intervals` is a list of `Cell`s from its head: an interval inside a chunk, or the cell
`past_end` that `create_new_chunk(0)` hands out. The cells in use are not listed: each was
taken from the free list, and taking one past the end has already been recorded. `overrun` is
not a field of the source: the model sets it where the code reads or writes past a block,
after which the heap, and so every later result, is undefined. `my_malloc` is taken to
succeed.

What `add_gno_interval` and `remove_gno_interval` do to the free list is modelled beside
their interval lists (`add_gno_interval_memory`, `remove_gno_interval_memory`), by the same
recursion over the intervals from the iterator on: one `get_free_interval` for an interval
inserted or split off, one `put_free_interval` for each interval removed.

`Interval_memory.Sound` says that there was no overrun and that every free cell lies inside
a chunk. Every operation of this file keeps it, but `create_new_chunk(0)`: with `past_end` at
the head of the free list, the next `get_free_interval` overruns.
-/

set_option autoImplicit false

namespace AliSql
namespace Gtid

/-- An element of the free list: one of the `Interval`s of a chunk, or the `&ivs[0]` of a
    chunk of size 0, which lies past the end of its block. -/
inductive Cell where
  | inside
  | past_end
deriving DecidableEq, Repr

/-- `Gtid_set::CHUNK_GROW_SIZE`: the intervals of a chunk `get_free_interval` allocates. -/
def CHUNK_GROW_SIZE : Nat := 8

/-- The allocator fields of a `Gtid_set`: whether `chunks` is non-NULL, and the free list
    `free_intervals` from its head; `overrun` records an access past a block. -/
structure Interval_memory where
  chunks : Bool
  free_intervals : List Cell
  overrun : Bool
deriving DecidableEq, Repr

namespace Interval_memory

/-- `Gtid_set::init()`: `chunks= NULL; free_intervals= NULL`. -/
def init : Interval_memory := ⟨false, [], false⟩

/-- `add_interval_memory_lock_taken(n_ivs, ivs)`: the `n_ivs` intervals of `ivs` are linked
    in front of the free list. -/
def add_interval_memory_lock_taken (mem : Interval_memory) : Nat → Interval_memory
  -- the loop links nothing, `ivs[-1].next` is the chunk's own `next` field, and the free
  -- list becomes `&ivs[0]`, past the end of the chunk's block
  | 0 => { mem with free_intervals := [.past_end] }
  | n + 1 => { mem with free_intervals := List.replicate (n + 1) .inside ++ mem.free_intervals }

/-- `Gtid_set::create_new_chunk(size)`: the chunk goes in front of `chunks`, its intervals in
    front of the free list. -/
def create_new_chunk (mem : Interval_memory) (size : Nat) : Interval_memory :=
  { mem with chunks := true }.add_interval_memory_lock_taken size

/-- `Gtid_set::get_free_interval(&out)`: a chunk of `CHUNK_GROW_SIZE` intervals when the free
    list is empty; then `*out` is its head, and the head becomes `(*out)->next`. -/
def get_free_interval (mem : Interval_memory) : Interval_memory :=
  let mem := if mem.free_intervals.isEmpty then mem.create_new_chunk CHUNK_GROW_SIZE else mem
  match mem.free_intervals with
  | .inside :: rest => { mem with free_intervals := rest }
  -- the head lies past its block (the list is not empty: a chunk was just linked in):
  -- `(*out)->next` is read there, and the caller writes `start` and `end` there
  | _ => { mem with free_intervals := [], overrun := true }

/-- `Gtid_set::put_free_interval(iv)`: the interval goes in front of the free list. -/
def put_free_interval (mem : Interval_memory) : Interval_memory :=
  { mem with free_intervals := .inside :: mem.free_intervals }

/-- One round of the loop of `clear` on the free list: a list of `n` intervals, when it is
    not empty, is linked in at the end of the free list, after a walk to that end that reads
    the `next` of every free cell. -/
def link_in (mem : Interval_memory) (n : Nat) : Interval_memory :=
  if n = 0 then mem
  else { mem with
    free_intervals := mem.free_intervals ++ List.replicate n .inside
    overrun := mem.overrun || mem.free_intervals.contains .past_end }

end Interval_memory

open Interval_memory

/-! ## What the interval operations do to the free list -/

/-- The merge loop of `add_gno_interval` on the free list: while the new interval reaches
    the next one, the current one is removed (`ivit.remove`). -/
def merge_gno_interval_memory : List Interval → Int → Interval_memory → Interval_memory
  | [], _, mem => mem
  | nx :: rest, e, mem =>
    if e ≥ nx.start then merge_gno_interval_memory rest e mem.put_free_interval else mem

/-- `Gtid_set::add_gno_interval` on the free list, from the iterator's position: an interval
    inserted takes a free one, a merge gives back each interval it removes. -/
def add_gno_interval_memory : List Interval → Int → Int → Interval_memory → Interval_memory
  | [], _, _, mem => mem.get_free_interval
  | iv :: rest, start, e, mem =>
    if iv.end ≥ start then
      if iv.start > e then mem.get_free_interval
      else merge_gno_interval_memory rest e mem
    else add_gno_interval_memory rest start e mem

/-- The second removal loop of `remove_gno_interval` on the free list: every interval that
    ends by `end` is removed. -/
def remove_covered_memory : List Interval → Int → Interval_memory → Interval_memory
  | [], _, mem => mem
  | iv :: rest, e, mem =>
    if iv.end ≤ e then remove_covered_memory rest e mem.put_free_interval else mem

/-- `Gtid_set::remove_gno_interval` on the free list, from the iterator's position: a split
    takes a free interval for the part after `end`, every interval covered is given back. -/
def remove_gno_interval_memory : List Interval → Int → Int → Interval_memory → Interval_memory
  | [], _, _, mem => mem
  | iv :: rest, start, e, mem =>
    if iv.end > start then
      if iv.start < start then
        if iv.end > e then mem.get_free_interval
        else remove_covered_memory rest e mem
      else remove_covered_memory (iv :: rest) e mem
    else remove_gno_interval_memory rest start e mem

/-! ## Sound memory -/

namespace Interval_memory

/-- No access past a block so far, and every free cell inside a chunk. -/
structure Sound (mem : Interval_memory) : Prop where
  no_overrun : mem.overrun = false
  inside : ∀ c ∈ mem.free_intervals, c = .inside

theorem sound_init : init.Sound :=
  ⟨rfl, fun _ h => absurd h List.not_mem_nil⟩

variable {mem : Interval_memory}

theorem Sound.put_free_interval (h : mem.Sound) : mem.put_free_interval.Sound := by
  refine ⟨h.no_overrun, fun c hc => ?_⟩
  rcases List.mem_cons.mp hc with rfl | hc
  · rfl
  · exact h.inside c hc

/-- A chunk of at least one interval keeps the memory sound. -/
theorem Sound.create_new_chunk (h : mem.Sound) {size : Nat} (hsize : 0 < size) :
    (mem.create_new_chunk size).Sound := by
  obtain ⟨n, rfl⟩ : ∃ n, size = n + 1 := ⟨size - 1, by omega⟩
  refine ⟨h.no_overrun, fun c hc => ?_⟩
  simp only [Interval_memory.create_new_chunk, add_interval_memory_lock_taken, List.mem_append,
    List.mem_replicate] at hc
  rcases hc with ⟨-, rfl⟩ | hc
  · rfl
  · exact h.inside c hc

/-- From a sound memory, `get_free_interval` takes a cell inside a chunk: the chunk it may
    allocate first has `CHUNK_GROW_SIZE` intervals. -/
theorem Sound.get_free_interval (h : mem.Sound) : mem.get_free_interval.Sound := by
  -- the memory once the free list is not empty
  have hpre : ∃ m', (if mem.free_intervals.isEmpty then mem.create_new_chunk CHUNK_GROW_SIZE
      else mem) = m' ∧ m'.Sound ∧ m'.free_intervals ≠ [] := by
    by_cases he : mem.free_intervals.isEmpty
    · refine ⟨_, rfl, ?_, ?_⟩ <;> rw [if_pos he]
      · exact h.create_new_chunk (by decide)
      · simp [Interval_memory.create_new_chunk, add_interval_memory_lock_taken, CHUNK_GROW_SIZE]
    · refine ⟨mem, by rw [if_neg he], h, by simpa using he⟩
  obtain ⟨m', hm', hs, hne⟩ := hpre
  unfold Interval_memory.get_free_interval
  rw [hm']
  obtain ⟨c, rest, hcr⟩ := List.exists_cons_of_ne_nil hne
  have hc : c = .inside := hs.inside c (by rw [hcr]; exact List.mem_cons_self)
  subst hc
  simp only [hcr]
  exact ⟨hs.no_overrun, fun d hd => hs.inside d (by rw [hcr]; exact List.mem_cons_of_mem _ hd)⟩

theorem Sound.link_in (h : mem.Sound) (n : Nat) : (mem.link_in n).Sound := by
  unfold Interval_memory.link_in
  split
  · exact h
  · -- the walk reads only cells inside chunks
    have hpast : Cell.past_end ∉ mem.free_intervals := fun hc =>
      absurd (h.inside _ hc) (by decide)
    refine ⟨by simp [h.no_overrun, hpast], fun c hc => ?_⟩
    rcases List.mem_append.mp hc with hc | hc
    · exact h.inside c hc
    · exact (List.mem_replicate.mp hc).2

end Interval_memory

theorem Interval_memory.Sound.merge_gno_interval_memory :
    ∀ {l : List Interval} {e : Int} {mem : Interval_memory}, mem.Sound →
      (merge_gno_interval_memory l e mem).Sound
  | [], _, _, h => h
  | nx :: rest, e, mem, h => by
    unfold Gtid.merge_gno_interval_memory
    split
    · exact Sound.merge_gno_interval_memory h.put_free_interval
    · exact h

theorem Interval_memory.Sound.add_gno_interval_memory :
    ∀ {l : List Interval} {start e : Int} {mem : Interval_memory}, mem.Sound →
      (add_gno_interval_memory l start e mem).Sound
  | [], _, _, _, h => h.get_free_interval
  | iv :: rest, start, e, mem, h => by
    unfold Gtid.add_gno_interval_memory
    split
    · split
      · exact h.get_free_interval
      · exact h.merge_gno_interval_memory
    · exact Sound.add_gno_interval_memory h

theorem Interval_memory.Sound.remove_covered_memory :
    ∀ {l : List Interval} {e : Int} {mem : Interval_memory}, mem.Sound →
      (remove_covered_memory l e mem).Sound
  | [], _, _, h => h
  | iv :: rest, e, mem, h => by
    unfold Gtid.remove_covered_memory
    split
    · exact Sound.remove_covered_memory h.put_free_interval
    · exact h

theorem Interval_memory.Sound.remove_gno_interval_memory :
    ∀ {l : List Interval} {start e : Int} {mem : Interval_memory}, mem.Sound →
      (remove_gno_interval_memory l start e mem).Sound
  | [], _, _, _, h => h
  | iv :: rest, start, e, mem, h => by
    unfold Gtid.remove_gno_interval_memory
    split
    · split
      · split
        · exact h.get_free_interval
        · exact h.remove_covered_memory
      · exact h.remove_covered_memory
    · exact Sound.remove_gno_interval_memory h

end Gtid
end AliSql
