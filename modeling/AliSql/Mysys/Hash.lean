import Mathlib
import AliSql.Lib.Links
import AliSql.Lib.LinearHash

/-!
# Hash tables (`mysys/hash.c`)

A `HASH` is a linear-hashing table whose chains are kept inside its own dynamic array of
`HASH_LINK`s: cell `i` holds a record pointer and the index of the next cell of its chain,
`NO_RECORD` ending the chain. The table has `records` cells in use, `0 .. records - 1`,
and as many buckets; bucket `b`'s chain starts at cell `b`, and a record belongs to the
bucket `my_hash_mask` computes from its hash value, `blength` (a power of two) and
`records`. `my_hash_insert` adds bucket `records` by splitting bucket
`records - blength / 2` in two, relinking both halves in one walk of its chain;
`my_hash_delete` fills the hole it leaves with the last cell and merges the last bucket
back; `my_hash_update` moves a record whose key has changed to its new chain.

The model keeps the fields of `HASH` that these functions read or write. The dynamic
array is a function of the index, cells at `records` and above being what the array
holds beyond its last element; `alloc_dynamic` is taken to succeed, and `pop_dynamic`
leaves the cells as they are. A record is a value of `α` compared as the source compares
pointers, and its key a value of `K`: `get_key` and `hash_function` stand for
`my_hash_key` and `calc_hash`, and `key_eq` for the test `hashcmp` makes,
`my_strnncoll(charset, …) == 0` on keys of the same length. The loops that follow links
get a fuel of `records` (or `records + 1` once `my_hash_insert` has taken its new cell):
no chain is longer, which the proofs show. `UNINIT_VAR` cells and pointers start as cell 0
and the record at hand.

Each function of `hash.c` is here under its own name, with the loops of `my_hash_insert`,
`my_hash_delete` and `my_hash_update` and the search loops as functions of their own.
`HASH.Wf` is the invariant of a table: the bounds on `blength` and, for each bucket in
use, the chain from its cell holding exactly its records. What `my_hash_check` checks
follows from it (`my_hash_check_wf`). The search functions are proved here; the
functions that change a table are proved in `AliSql.Mysys.HashInsert`,
`AliSql.Mysys.HashDelete` and `AliSql.Mysys.HashUpdate`.
-/

set_option autoImplicit false

namespace AliSql

/-- `NO_RECORD`, `(uint) -1`: the link that ends a chain. -/
def NO_RECORD : Nat := 4294967295

/-- `HASH_UNIQUE`, a bit of `hash->flags`: `my_hash_insert` fails on a duplicate key. -/
def HASH_UNIQUE : Nat := 1

/-- The bits of `flag` in `my_hash_insert`. -/
def LOWFIND : Nat := 1
def LOWUSED : Nat := 2
def HIGHFIND : Nat := 4
def HIGHUSED : Nat := 8

/-- `HASH_LINK`, a cell of `hash->array`. -/
structure HASH_LINK (α : Type) where
  /-- index to next key -/
  next : Nat
  /-- data for current entry -/
  data : α

/-- The fields of a `HASH` that the functions of `hash.c` read or write. -/
structure HASH (α K : Type) where
  blength : Nat
  records : Nat
  flags : Nat
  array : Nat → HASH_LINK α
  get_key : α → K
  hash_function : K → UInt32
  key_eq : K → K → Bool

variable {α K : Type}

section helpers

/-- `calc_hash(hash, key, length)`. -/
def calc_hash (hash : HASH α K) (key : K) : UInt32 := hash.hash_function key

/-- `rec_hashnr(hash, record)`: the hash value of the record's key. -/
def rec_hashnr (hash : HASH α K) (record : α) : UInt32 := calc_hash hash (hash.get_key record)

/-- `my_hash_mask(hashnr, buffmax, maxlength)`: the bucket of a hash value. -/
def my_hash_mask (hashnr : UInt32) (buffmax maxlength : Nat) : Nat :=
  if hashnr.toNat &&& (buffmax - 1) < maxlength then hashnr.toNat &&& (buffmax - 1)
  else hashnr.toNat &&& ((buffmax >>> 1) - 1)

/-- `my_hash_rec_mask(hash, pos, buffmax, maxlength)`: the bucket of the record in `pos`. -/
def my_hash_rec_mask (hash : HASH α K) (pos : HASH_LINK α) (buffmax maxlength : Nat) : Nat :=
  my_hash_mask (rec_hashnr hash pos.data) buffmax maxlength

/-- `hashcmp(hash, pos, key, length)`: `false` (0) when the record in `pos` has key `key`. -/
def hashcmp (hash : HASH α K) (pos : HASH_LINK α) (key : K) : Bool :=
  !hash.key_eq (hash.get_key pos.data) key

/-- `movelink(array, find, next_link, newlink)`: from `next_link`, follow the links to the
    cell that links to `find`, and link it to `newlink` instead. -/
def movelink (array : Nat → HASH_LINK α) (find next_link newlink : Nat) :
    Nat → Nat → HASH_LINK α
  | 0 => array
  | fuel + 1 =>
    let old_link := array next_link
    if old_link.next = find then Function.update array next_link { old_link with next := newlink }
    else movelink array find old_link.next newlink fuel

end helpers

section search

/-- The `do … while` loop of `my_hash_first_from_hash_value` from cell `idx`, `flag`
    telling the first turn: the record found and its cell (`*current_record`). -/
def my_hash_first_from_hash_value.loop (hash : HASH α K) (key : K) :
    Nat → Bool → Nat → Option (α × Nat)
  | 0, _, _ => none
  | fuel + 1, flag, idx =>
    let pos := hash.array idx
    if !hashcmp hash pos key then some (pos.data, idx)
    -- on the first turn, a chain that does not start at its own cell is no chain here
    else if flag && my_hash_rec_mask hash pos hash.blength hash.records != idx then none
    else if pos.next = NO_RECORD then none
    else loop hash key fuel false pos.next

/-- `my_hash_first_from_hash_value(hash, hash_value, key, length, current_record)`:
    `none` is the null pointer, with `*current_record` set to `NO_RECORD`. -/
def my_hash_first_from_hash_value (hash : HASH α K) (hash_value : UInt32) (key : K) :
    Option (α × Nat) :=
  if hash.records ≠ 0 then
    my_hash_first_from_hash_value.loop hash key hash.records true
      (my_hash_mask hash_value hash.blength hash.records)
  else none

/-- `my_hash_first(hash, key, length, current_record)` on an initialised table. -/
def my_hash_first (hash : HASH α K) (key : K) : Option (α × Nat) :=
  my_hash_first_from_hash_value hash (calc_hash hash key) key

/-- `my_hash_search(hash, key, length)`. -/
def my_hash_search (hash : HASH α K) (key : K) : Option α :=
  (my_hash_first hash key).map Prod.fst

/-- The `for` loop of `my_hash_next` from the link `idx`. -/
def my_hash_next.loop (hash : HASH α K) (key : K) : Nat → Nat → Option (α × Nat)
  | 0, _ => none
  | fuel + 1, idx =>
    if idx = NO_RECORD then none
    else
      let pos := hash.array idx
      if !hashcmp hash pos key then some (pos.data, idx) else loop hash key fuel pos.next

/-- `my_hash_next(hash, key, length, current_record)`: the next record with the key after
    the cell `current_record`. -/
def my_hash_next (hash : HASH α K) (key : K) (current_record : Nat) : Option (α × Nat) :=
  if current_record ≠ NO_RECORD then
    my_hash_next.loop hash key hash.records (hash.array current_record).next
  else none

/-- `my_hash_element(hash, idx)`. -/
def my_hash_element (hash : HASH α K) (idx : Nat) : Option α :=
  if idx < hash.records then some (hash.array idx).data else none

/-- `my_hash_replace(hash, current_record, new_row)`. -/
def my_hash_replace (hash : HASH α K) (current_record : Nat) (new_row : α) : HASH α K :=
  if current_record ≠ NO_RECORD then
    let cell := { hash.array current_record with data := new_row }
    { hash with array := Function.update hash.array current_record cell }
  else hash

end search

section insert

/-- The variables of the loop of `my_hash_insert` that splits a chain. -/
structure split_state (α : Type) where
  flag : Nat
  gpos : Nat
  gpos2 : Nat
  ptr_to_rec : α
  ptr_to_rec2 : α
  empty : Nat
  array : Nat → HASH_LINK α

/-- One turn of the split loop of `my_hash_insert` at cell `pos`, whose record has hash
    value `hash_nr`. A record whose bit `halfbuff` is clear stays in the low chain, the
    others go to the high one; each chain's last record waits in `ptr_to_rec` (or
    `ptr_to_rec2`) for the cell `gpos` (or `gpos2`) it will be written to, unless
    `LOWUSED` (or `HIGHUSED`) says it is in that cell already. -/
def my_hash_insert.split_step (halfbuff : Nat) (s : split_state α) (pos : Nat)
    (hash_nr : UInt32) : split_state α :=
  if hash_nr.toNat &&& halfbuff = 0 then
    -- key will not move
    if s.flag &&& LOWFIND = 0 then
      if s.flag &&& HIGHFIND ≠ 0 then
        { s with flag := LOWFIND ||| HIGHFIND, gpos := s.empty,
                 ptr_to_rec := (s.array pos).data, empty := pos }
      else
        { s with flag := LOWFIND ||| LOWUSED, gpos := pos, ptr_to_rec := (s.array pos).data }
    else
      let s :=
        if s.flag &&& LOWUSED = 0 then
          { s with array := Function.update s.array s.gpos ⟨pos, s.ptr_to_rec⟩,
                   flag := (s.flag &&& HIGHFIND) ||| (LOWFIND ||| LOWUSED) }
        else s
      { s with gpos := pos, ptr_to_rec := (s.array pos).data }
  else
    -- key will be moved
    if s.flag &&& HIGHFIND = 0 then
      { s with flag := (s.flag &&& LOWFIND) ||| HIGHFIND, gpos2 := s.empty, empty := pos,
               ptr_to_rec2 := (s.array pos).data }
    else
      let s :=
        if s.flag &&& HIGHUSED = 0 then
          { s with array := Function.update s.array s.gpos2 ⟨pos, s.ptr_to_rec2⟩,
                   flag := (s.flag &&& LOWFIND) ||| (HIGHFIND ||| HIGHUSED) }
        else s
      { s with gpos2 := pos, ptr_to_rec2 := (s.array pos).data }

/-- The `do … while` loop of `my_hash_insert` over the chain of bucket `first_index`,
    from cell `idx`. On its first turn it stops at once if that cell does not start the
    bucket's chain. -/
def my_hash_insert.split_loop (info : HASH α K) (halfbuff first_index : Nat) :
    Nat → Nat → split_state α → split_state α
  | 0, _, s => s
  | fuel + 1, idx, s =>
    let hash_nr := rec_hashnr info (s.array idx).data
    if s.flag = 0 ∧ my_hash_mask hash_nr info.blength info.records ≠ first_index then s
    else
      let s := split_step halfbuff s idx hash_nr
      if (s.array idx).next = NO_RECORD then s
      else split_loop info halfbuff first_index fuel (s.array idx).next s

/-- After the split loop: the last record of a chain that is not in its cell yet is
    written there, and ends the chain. -/
def my_hash_insert.split_end (s : split_state α) : Nat → HASH_LINK α :=
  let array :=
    if s.flag &&& (LOWFIND ||| LOWUSED) = LOWFIND then
      Function.update s.array s.gpos ⟨NO_RECORD, s.ptr_to_rec⟩
    else s.array
  if s.flag &&& (HIGHFIND ||| HIGHUSED) = HIGHFIND then
    Function.update array s.gpos2 ⟨NO_RECORD, s.ptr_to_rec2⟩
  else array

/-- The cells after the split of `my_hash_insert`, and the cell left free (`empty`). -/
def my_hash_insert.split (info : HASH α K) (record : α) : Nat × (Nat → HASH_LINK α) :=
  let halfbuff := info.blength >>> 1
  let first_index := info.records - halfbuff
  if first_index ≠ info.records then
    let s := split_loop info halfbuff first_index info.records first_index
      ⟨0, 0, 0, record, record, info.records, info.array⟩
    (s.empty, split_end s)
  else (info.records, info.array)

/-- The end of `my_hash_insert`: the new record is written to the cell of its bucket;
    what was there moves to the free cell `empty`, and stays at the head of its chain
    behind the new record if it is of the same bucket, or is relinked from its own chain
    otherwise. -/
def my_hash_insert.place (info : HASH α K) (record : α) (empty : Nat)
    (data : Nat → HASH_LINK α) : Nat → HASH_LINK α :=
  let pos := my_hash_mask (rec_hashnr info record) info.blength (info.records + 1)
  if pos = empty then Function.update data pos ⟨NO_RECORD, record⟩
  else
    let data := Function.update data empty (data pos)
    let gpos := my_hash_rec_mask info (data pos) info.blength (info.records + 1)
    if pos = gpos then Function.update data pos ⟨empty, record⟩
    else
      movelink (Function.update data pos ⟨NO_RECORD, record⟩) pos gpos empty
        (info.records + 1)

/-- `my_hash_insert(info, record)`: `true` on a duplicate key. -/
def my_hash_insert (info : HASH α K) (record : α) : Bool × HASH α K :=
  if info.flags &&& HASH_UNIQUE ≠ 0 ∧ (my_hash_search info (info.get_key record)).isSome then
    (true, info)
  else
    let (empty, data) := my_hash_insert.split info record
    let data := my_hash_insert.place info record empty data
    let records := info.records + 1
    (false, { info with
      records := records
      blength := if records = info.blength then info.blength + info.blength else info.blength
      array := data })

end insert

section delete

variable [DecidableEq α]

/-- The search loop of `my_hash_delete` from cell `pos`: the cell holding `record`, and
    the cell before it in the chain (`gpos`, `none` at the chain's head). -/
def my_hash_delete.find (data : Nat → HASH_LINK α) (record : α) :
    Nat → Option Nat → Nat → Option (Option Nat × Nat)
  | 0, _, _ => none
  | fuel + 1, gpos, pos =>
    if (data pos).data = record then some (gpos, pos)
    else if (data pos).next = NO_RECORD then none
    else find data record fuel (some pos) (data pos).next

/-- The end of `my_hash_delete` when the last cell `lastpos` must be kept: its record is
    linked into the chain of cell `pos` after `pos` (`idx = pos`, when the record in `pos`
    was in its chain), or its chain is put between `pos` and the rest of `pos`'s chain
    (`idx = NO_RECORD`, two chains merged). -/
def my_hash_delete.merge (data : Nat → HASH_LINK α) (lastpos empty pos idx records : Nat) :
    Nat → HASH_LINK α :=
  let data := Function.update data empty (data lastpos)
  let data := movelink data idx empty (data pos).next records
  Function.update data pos { data pos with next := empty }

/-- The first half of `my_hash_delete`, once `record` is found in cell `pos` after `gpos`:
    the record is unlinked from its chain, and the cell it leaves free (`empty`) is
    returned with the cells. At the head of a chain that goes on, the next record is moved
    up into `pos`, and its cell is the one left free. -/
def my_hash_delete.unlink (data : Nat → HASH_LINK α) (gpos : Option Nat) (pos : Nat) :
    Nat × (Nat → HASH_LINK α) :=
  match gpos with
  | some gpos => (pos, Function.update data gpos { data gpos with next := (data pos).next })
  | none =>
    if (data pos).next ≠ NO_RECORD then
      ((data pos).next, Function.update data pos (data (data pos).next))
    else (pos, data)

/-- The second half of `my_hash_delete`: the last cell `lastpos = records` is emptied into
    the free cell `empty`, `hash.records` and `hash.blength` already lowered to `records`
    and `blength`; `blength0` is the `blength` the delete started with. -/
def my_hash_delete.move_last (hash : HASH α K) (blength0 records blength empty : Nat)
    (data : Nat → HASH_LINK α) : Nat → HASH_LINK α :=
  let lastpos := records
  if empty = lastpos then data
  else
    -- move the last key (lastpos)
    let lastpos_hashnr := rec_hashnr hash (data lastpos).data
    let pos := my_hash_mask lastpos_hashnr blength records
    if pos = empty then Function.update data empty (data lastpos)
    else
      let pos_hashnr := rec_hashnr hash (data pos).data
      let pos3 := my_hash_mask pos_hashnr blength records
      if pos ≠ pos3 then
        -- pos is on wrong position
        let data := Function.update data empty (data pos)
        let data := Function.update data pos (data lastpos)
        movelink data pos pos3 empty records
      else
        let pos2 := my_hash_mask lastpos_hashnr blength0 (records + 1)
        if pos2 = my_hash_mask pos_hashnr blength0 (records + 1) then
          -- identical key-positions
          if pos2 ≠ records then
            movelink (Function.update data empty (data lastpos)) lastpos pos empty records
          else my_hash_delete.merge data lastpos empty pos pos records
        else my_hash_delete.merge data lastpos empty pos NO_RECORD records

/-- `my_hash_delete(hash, record)`: `true` when the record is not in the table. -/
def my_hash_delete (hash : HASH α K) (record : α) : Bool × HASH α K :=
  if hash.records = 0 then (true, hash)
  else
    match my_hash_delete.find hash.array record hash.records none
        (my_hash_mask (rec_hashnr hash record) hash.blength hash.records) with
    | none => (true, hash)
    | some (gpos, pos) =>
      let records := hash.records - 1
      let blength :=
        if records < hash.blength >>> 1 then hash.blength >>> 1 else hash.blength
      (false, { hash with
        records := records
        blength := blength
        array :=
          let (empty, data) := my_hash_delete.unlink hash.array gpos pos
          my_hash_delete.move_last hash hash.blength records blength empty data })

end delete

section update

variable [DecidableEq α]

/-- The check of `my_hash_update` on a `HASH_UNIQUE` table: `true` when a record other
    than `record` has the new key, walking `my_hash_first` and then `my_hash_next`. -/
def my_hash_update.duplicate (hash : HASH α K) (record : α) (new_key : K) :
    Nat → Option (α × Nat) → Bool
  | 0, _ => false
  | _, none => false
  | fuel + 1, some (found, state) =>
    if found ≠ record then true
    else duplicate hash record new_key fuel (my_hash_next hash new_key state)

/-- The search loop of `my_hash_update` from cell `idx`: the cell holding `record`, and
    the cell before it (`previous`). -/
def my_hash_update.find (data : Nat → HASH_LINK α) (record : α) :
    Nat → Option Nat → Nat → Option (Option Nat × Nat)
  | 0, _, _ => none
  | fuel + 1, previous, idx =>
    if (data idx).data = record then some (previous, idx)
    else if (data idx).next = NO_RECORD then none
    else find data record fuel (some idx) (data idx).next

/-- The second half of `my_hash_update` ("Move data to correct position"): the record,
    whose cell was `org_link`, goes to its new bucket `new_index` through the free cell
    `empty`. -/
def my_hash_update.move_data (hash : HASH α K) (blength records new_index idx empty : Nat)
    (org_link : HASH_LINK α) (data : Nat → HASH_LINK α) : Nat → HASH_LINK α :=
  if new_index = empty then
    let data := if empty ≠ idx then Function.update data empty org_link else data
    Function.update data empty { data empty with next := NO_RECORD }
  else
    let new_pos_index := my_hash_rec_mask hash (data new_index) blength records
    if new_index ≠ new_pos_index then
      -- other record in wrong position
      let data := Function.update data empty (data new_index)
      let data := movelink data new_index new_pos_index empty records
      Function.update data new_index { org_link with next := NO_RECORD }
    else
      -- link in chain at right position
      let data := Function.update data empty { org_link with next := (data new_index).next }
      Function.update data new_index { data new_index with next := empty }

/-- `my_hash_update` once `record` is found in cell `idx` after `previous`, its new
    bucket being `new_index`. The source unlinks the record from its chain ("Relink record
    from current chain") with the code of `my_hash_delete`, which is
    `my_hash_delete.unlink` here. -/
def my_hash_update.relink (hash : HASH α K) (blength records new_index : Nat)
    (previous : Option Nat) (idx : Nat) : Nat → HASH_LINK α :=
  let org_link := hash.array idx
  let (empty, data) := my_hash_delete.unlink hash.array previous idx
  my_hash_update.move_data hash blength records new_index idx empty org_link data

/-- `my_hash_update(hash, record, old_key, old_key_length)`, called once the key of
    `record` has changed from `old_key`: `true` on a duplicate new key, or when the record
    is not in the chain of its old key. -/
def my_hash_update (hash : HASH α K) (record : α) (old_key : K) : Bool × HASH α K :=
  let new_key := hash.get_key record
  if hash.flags &&& HASH_UNIQUE ≠ 0 ∧
      my_hash_update.duplicate hash record new_key (hash.records + 1)
        (my_hash_first hash new_key) then
    (true, hash)
  else
    let blength := hash.blength
    let records := hash.records
    -- search after record with key
    let idx := my_hash_mask (calc_hash hash old_key) blength records
    let new_index := my_hash_mask (rec_hashnr hash record) blength records
    if idx = new_index then (false, hash)
    else
      match my_hash_update.find hash.array record records none idx with
      | none => (true, hash)
      | some (previous, idx) =>
        (false, { hash with
          array := my_hash_update.relink hash blength records new_index previous idx })

end update

section check

/-- The inner loop of `my_hash_check` over the chain from its head `i`, from the link
    `idx`: the error flag and the count of records found. -/
def my_hash_check.links (hash : HASH α K) (records blength i : Nat) :
    Nat → Nat → Bool → Nat → Bool × Nat
  | 0, _, error, found => (error, found)
  | fuel + 1, idx, error, found =>
    if idx ≠ NO_RECORD ∧ found < records + 1 then
      let error := error || decide (idx ≥ records)
      let hash_info := hash.array idx
      if my_hash_rec_mask hash hash_info blength records ≠ i then
        links hash records blength i fuel hash_info.next true found
      else links hash records blength i fuel hash_info.next error (found + 1)
    else (error, found)

/-- One turn of the outer loop of `my_hash_check`, at cell `i`. -/
def my_hash_check.cell (hash : HASH α K) (acc : Bool × Nat) (i : Nat) : Bool × Nat :=
  if my_hash_rec_mask hash (hash.array i) hash.blength hash.records = i then
    my_hash_check.links hash hash.records hash.blength i hash.records (hash.array i).next
      acc.1 (acc.2 + 1)
  else acc

/-- `my_hash_check(hash)`: `true` (1) when a chain holds a record of another bucket, links
    outside the table, or the chains do not hold `records` records between them. -/
def my_hash_check (hash : HASH α K) : Bool :=
  let (error, found) := (List.range hash.records).foldl (my_hash_check.cell hash) (false, 0)
  error || found != hash.records

end check

/-- `_my_hash_init` and `my_hash_reset`: no records, `blength` 1. -/
def my_hash_reset (hash : HASH α K) : HASH α K :=
  { hash with records := 0, blength := 1 }

/-! ## The invariant -/

section invariant

/-- The bucket of a record: `my_hash_mask` of its hash value, read as linear hashing
    addresses it. -/
def HASH.addr (hash : HASH α K) (record : α) : Nat :=
  LinearHash.addr (rec_hashnr hash record).toNat hash.blength hash.records

/-- The link of each cell. -/
def HASH.next (hash : HASH α K) (i : Nat) : Nat := (hash.array i).next

/-- The bucket of the record in each cell. -/
def HASH.label (hash : HASH α K) (i : Nat) : Nat := hash.addr (hash.array i).data

/-- The records of the table, cell by cell. -/
def HASH.elements (hash : HASH α K) : List α :=
  (List.range hash.records).map fun i => (hash.array i).data

/-- The invariant of a table: `blength` is the power of two with
    `blength / 2 ≤ records < blength`, and the cells in use are linked into one chain
    per bucket, the chain of bucket `b` starting at cell `b`. -/
structure HASH.Wf (hash : HASH α K) : Prop where
  blength_pow : ∃ n, hash.blength = 2 ^ n
  half_le : hash.blength / 2 ≤ hash.records
  records_lt : hash.records < hash.blength
  buckets : Links.Buckets hash.next NO_RECORD hash.label (· < hash.records)

/-- The hash function agrees with the comparison of keys, as the hash of a collation
    does: keys found equal have one hash value. -/
def HASH.Compat (hash : HASH α K) : Prop :=
  ∀ k k', hash.key_eq k k' = true → hash.hash_function k = hash.hash_function k'

/-- **`my_hash_mask` is the linear-hashing address** once the table has a record. -/
theorem my_hash_mask_eq {hashnr : UInt32} {n buffmax maxlength : Nat} (hb : buffmax = 2 ^ n)
    (hr : 0 < maxlength) :
    my_hash_mask hashnr buffmax maxlength = LinearHash.addr hashnr.toNat buffmax maxlength := by
  subst hb
  unfold my_hash_mask LinearHash.addr
  rw [Nat.and_two_pow_sub_one_eq_mod]
  split_ifs with hlt
  · rfl
  · cases n with
    | zero =>
      -- `hashnr % 1 = 0 < maxlength`: the first branch is taken
      rw [Nat.pow_zero, Nat.mod_one] at hlt
      omega
    | succ m =>
      rw [Nat.shiftRight_one, Nat.pow_succ, Nat.mul_div_cancel _ (by norm_num),
        Nat.and_two_pow_sub_one_eq_mod]

variable {hash : HASH α K}

theorem HASH.Wf.mask_eq (h : hash.Wf) (hr : 0 < hash.records) (hashnr : UInt32) :
    my_hash_mask hashnr hash.blength hash.records =
      LinearHash.addr hashnr.toNat hash.blength hash.records := by
  obtain ⟨n, hn⟩ := h.blength_pow
  exact my_hash_mask_eq hn hr

theorem HASH.Wf.rec_mask_eq (h : hash.Wf) (hr : 0 < hash.records) (i : Nat) :
    my_hash_rec_mask hash (hash.array i) hash.blength hash.records = hash.label i :=
  h.mask_eq hr _

/-- Every hash value has a bucket in use. -/
theorem HASH.Wf.mask_lt (h : hash.Wf) (hr : 0 < hash.records) (hashnr : UInt32) :
    my_hash_mask hashnr hash.blength hash.records < hash.records := by
  obtain ⟨n, hn⟩ := h.blength_pow
  rw [h.mask_eq hr]
  exact LinearHash.addr_lt (by rw [hn]; exact Nat.two_pow_pos n) h.half_le hr

/-- No cell in use is `NO_RECORD`: every one is in a chain, which `NO_RECORD` ends. -/
theorem HASH.Wf.records_le (h : hash.Wf) : hash.records ≤ NO_RECORD := by
  by_contra hlt
  obtain ⟨l, hl, hmem⟩ := h.buckets NO_RECORD (by omega)
  exact hl.not_mem ((hmem NO_RECORD).2 ⟨by omega, rfl⟩)

/-- A table emptied by `my_hash_reset` keeps the invariant. -/
theorem my_hash_reset_wf (hash : HASH α K) : (my_hash_reset hash).Wf where
  blength_pow := ⟨0, rfl⟩
  half_le := by simp [my_hash_reset]
  records_lt := by simp [my_hash_reset]
  buckets := fun i hi => absurd hi (by simp [my_hash_reset])

/-- A table of one record, in cell 0 at the end of its chain, keeps the invariant: what
    `my_hash_insert` makes of an empty table. -/
theorem HASH.wf_single (hash : HASH α K) (hr : hash.records = 1) (hb : hash.blength = 2)
    (hnext : (hash.array 0).next = NO_RECORD) : hash.Wf where
  blength_pow := ⟨1, hb⟩
  half_le := by rw [hr, hb]
  records_lt := by rw [hr, hb]; decide
  buckets := fun i hi => by
    -- with one bucket in use, every record is of bucket 0
    have hlabel : ∀ j, hash.label j = 0 := fun j => by
      simp only [HASH.label, HASH.addr, LinearHash.addr, hr, hb]
      split_ifs <;> omega
    refine ⟨[0], ⟨?_, by simp [NO_RECORD]⟩, fun b => ?_⟩
    · simp [hlabel, Links.Path, HASH.next, hnext]
    · simp only [List.mem_singleton, hlabel, hr, and_true]
      omega

end invariant

/-! ## Relinking -/

section movelink_proof

/-- **`movelink` relinks the cell before `find`.** Walking from `next_link` through the
    cells `pre` to the cell `p` that links to `find`, none of `pre` linking to `find`,
    `movelink` links `p` to `newlink` and changes nothing else. -/
theorem movelink_eq {arr : Nat → HASH_LINK α} {find next_link newlink p fuel : Nat}
    {pre : List Nat} (hp : Links.Path (fun j => (arr j).next) next_link pre p)
    (hne : ∀ q ∈ pre, (arr q).next ≠ find) (hpf : (arr p).next = find)
    (hfuel : pre.length < fuel) :
    movelink arr find next_link newlink fuel =
      Function.update arr p { arr p with next := newlink } := by
  induction pre generalizing next_link fuel with
  | nil =>
    obtain rfl := Links.path_nil.1 hp
    obtain ⟨f, rfl⟩ : ∃ f, fuel = f + 1 := ⟨fuel - 1, by simp at hfuel; omega⟩
    simp only [movelink]
    rw [if_pos hpf]
  | cons q pre ih =>
    obtain ⟨rfl, hp⟩ := Links.path_cons.1 hp
    obtain ⟨f, rfl⟩ : ∃ f, fuel = f + 1 := ⟨fuel - 1, by simp at hfuel; omega⟩
    simp only [movelink]
    rw [if_neg (hne _ List.mem_cons_self)]
    exact ih hp (fun r hr => hne r (List.mem_cons_of_mem _ hr)) (by simp at hfuel; omega)

/-- Writing the cell `movelink` looks for commutes with the walk, which stops before it. -/
theorem movelink_update_find (arr : Nat → HASH_LINK α) (v : HASH_LINK α)
    {find next_link newlink : Nat} (fuel : Nat) (hne : next_link ≠ find) :
    movelink (Function.update arr find v) find next_link newlink fuel =
      Function.update (movelink arr find next_link newlink fuel) find v := by
  induction fuel generalizing next_link with
  | zero => rfl
  | succ f ih =>
    simp only [movelink, Function.update_of_ne hne]
    split_ifs with hnext
    · exact (Function.update_comm hne _ _ _).symm
    · exact ih hnext

/-- `movelink` changes links only. -/
@[simp] theorem movelink_data (arr : Nat → HASH_LINK α) (find next_link newlink fuel j : Nat) :
    (movelink arr find next_link newlink fuel j).data = (arr j).data := by
  induction fuel generalizing next_link with
  | zero => rfl
  | succ f ih =>
    simp only [movelink]
    split_ifs
    · by_cases hj : j = next_link
      · subst hj
        simp
      · rw [Function.update_of_ne hj]
    · exact ih _

end movelink_proof

section cells

/-- **Records moved between cells.** When the record of cell `t` becomes `record` and,
    unless `t` is `e`, the record of `t` moves to cell `e`, the cells below `m` hold
    `record` and what the cells below `m` but `e` held. -/
theorem map_data_perm_of_move {m e t : Nat} {record : α} {D D' : Nat → HASH_LINK α}
    (ht : t < m) (he : e < m)
    (hD't : (D' t).data = record) (hD'e : t ≠ e → (D' e).data = (D t).data)
    (hD'o : ∀ j, j ≠ e → j ≠ t → (D' j).data = (D j).data) :
    ((List.range m).map fun j => (D' j).data).Perm
      (record :: ((List.range m).filter (· ≠ e)).map fun j => (D j).data) := by
  have hnd := List.nodup_range (n := m)
  have hfilter : (List.range m).filter (· ≠ e) = (List.range m).erase e := by
    rw [hnd.erase_eq_filter]
    congr 1
    funext x
    rw [bne, beq_eq_decide, decide_not]
  rw [hfilter]
  have hR : ∀ j ∈ (List.range m).erase e, j ≠ e := fun j hj => (hnd.mem_erase_iff.1 hj).1
  have h1 := (List.perm_cons_erase (List.mem_range.2 he)).map fun j => (D' j).data
  rw [List.map_cons] at h1
  by_cases hte : t = e
  · subst hte
    rw [hD't] at h1
    exact h1.trans (List.Perm.cons _ (List.Perm.of_eq
      (List.map_congr_left fun j hj => hD'o j (hR j hj) (hR j hj))))
  -- `t` is among the other cells: take it out on both sides
  have htR : t ∈ (List.range m).erase e := hnd.mem_erase_iff.2 ⟨hte, List.mem_range.2 ht⟩
  have hR' : ∀ j ∈ ((List.range m).erase e).erase t, j ≠ e ∧ j ≠ t := fun j hj => by
    have := ((hnd.erase e).mem_erase_iff.1 hj)
    exact ⟨hR j this.2, this.1⟩
  have h2 := List.perm_cons_erase htR
  have hrest : (((List.range m).erase e).erase t).map (fun j => (D' j).data) =
      (((List.range m).erase e).erase t).map fun j => (D j).data :=
    List.map_congr_left fun j hj => hD'o j (hR' j hj).1 (hR' j hj).2
  have hL := h1.trans ((h2.map fun j => (D' j).data).cons _)
  rw [List.map_cons, hD't, hD'e hte, hrest] at hL
  have hR2 := ((h2.map fun j => (D j).data).cons record)
  rw [List.map_cons] at hR2
  exact hL.trans ((List.Perm.swap _ _ _).trans hR2.symm)

end cells

/-! ## Searching -/

section search_proof

variable {hash : HASH α K} {key : K}

/-- The cell `j` holds a record with key `key`. -/
def HASH.has_key (hash : HASH α K) (key : K) (j : Nat) : Bool :=
  hash.key_eq (hash.get_key (hash.array j).data) key

@[simp] theorem not_hashcmp (j : Nat) : (!hashcmp hash (hash.array j) key) = hash.has_key key j := by
  simp [hashcmp, HASH.has_key]

/-- What a caller collects with `my_hash_first` and then `my_hash_next` until the null
    pointer, the walk of the check in `my_hash_update`, with at most `fuel` calls (the one
    that returns the null pointer included); `none` when the calls run out first. -/
def hash_search_all (hash : HASH α K) (key : K) : Nat → Option (α × Nat) → Option (List α)
  | 0, _ => none
  | _ + 1, none => some []
  | fuel + 1, some (found, state) =>
    (hash_search_all hash key fuel (my_hash_next hash key state)).map (found :: ·)

/-- The record of a cell, with the cell. -/
def HASH.found (hash : HASH α K) (j : Nat) : α × Nat := ((hash.array j).data, j)

/-- The loop of `my_hash_next` over a chain finds its first cell with the key. -/
theorem my_hash_next.loop_chain {idx fuel : Nat} {l : List Nat}
    (hl : Links.Chain hash.next NO_RECORD idx l) (hf : l.length ≤ fuel) :
    my_hash_next.loop hash key fuel idx = (l.find? (hash.has_key key)).map hash.found := by
  induction l generalizing idx fuel with
  | nil =>
    rw [Links.chain_nil.1 hl]
    cases fuel <;> simp [my_hash_next.loop]
  | cons j l ih =>
    obtain ⟨rfl, hj, hl⟩ := Links.chain_cons.1 hl
    obtain ⟨fuel, rfl⟩ : ∃ f, fuel = f + 1 := ⟨fuel - 1, by simp at hf; omega⟩
    have ih' := ih hl (by simp at hf; omega)
    simp only [my_hash_next.loop, if_neg hj, not_hashcmp, List.find?_cons]
    cases hk : hash.has_key key idx
    · simpa [HASH.next] using ih'
    · simp [HASH.found]

/-- After its first turn, the loop of `my_hash_first_from_hash_value` is the loop of
    `my_hash_next`. -/
theorem my_hash_first_from_hash_value.loop_false (fuel idx : Nat) :
    (if idx = NO_RECORD then none
      else my_hash_first_from_hash_value.loop hash key fuel false idx) =
      my_hash_next.loop hash key fuel idx := by
  induction fuel generalizing idx with
  | zero => simp [my_hash_first_from_hash_value.loop, my_hash_next.loop]
  | succ fuel ih =>
    by_cases hidx : idx = NO_RECORD
    · simp [hidx, my_hash_next.loop]
    · simp only [if_neg hidx, my_hash_first_from_hash_value.loop, my_hash_next.loop,
        not_hashcmp, Bool.false_and, Bool.false_eq_true, if_false]
      rw [← ih]

/-- The first turn of `my_hash_first_from_hash_value`: the cell of the bucket, then the
    rest of the chain if that cell starts one. -/
theorem my_hash_first_from_hash_value.loop_true (fuel idx : Nat) :
    my_hash_first_from_hash_value.loop hash key (fuel + 1) true idx =
      if hash.has_key key idx then some (hash.found idx)
      else if my_hash_rec_mask hash (hash.array idx) hash.blength hash.records ≠ idx then none
      else my_hash_next.loop hash key fuel (hash.next idx) := by
  rw [← loop_false]
  simp only [my_hash_first_from_hash_value.loop, not_hashcmp, HASH.found, HASH.next,
    Bool.true_and, bne_iff_ne, ne_eq]
  rfl

/-- Walking on with `my_hash_next` from the cells before `rest` collects the records of
    `rest` that have the key, and reaches the null pointer within one call more than
    `rest` has cells. -/
theorem hash_search_all_chain {s fuel : Nat} {rest : List Nat}
    (hl : Links.Chain hash.next NO_RECORD s rest) (hf : rest.length < fuel)
    (hr : rest.length ≤ hash.records) :
    hash_search_all hash key fuel ((rest.find? (hash.has_key key)).map hash.found) =
      some ((rest.filter (hash.has_key key)).map fun j => (hash.array j).data) := by
  obtain ⟨fuel, rfl⟩ : ∃ f, fuel = f + 1 := ⟨fuel - 1, by omega⟩
  induction rest generalizing s fuel with
  | nil => rfl
  | cons a rest ih =>
    obtain ⟨hs, ha, hrest⟩ := Links.chain_cons.1 hl
    simp only [List.length_cons] at hf hr
    rw [List.find?_cons, List.filter_cons]
    cases hk : hash.has_key key a
    · exact ih hrest (by omega) fuel (by omega)
    · -- `a` is found; `my_hash_next` from `a` walks the rest of the chain
      have hnext : my_hash_next hash key a = (rest.find? (hash.has_key key)).map hash.found := by
        rw [my_hash_next, if_pos ha]
        exact my_hash_next.loop_chain hrest (by omega)
      obtain ⟨f, rfl⟩ : ∃ f, fuel = f + 1 := ⟨fuel - 1, by omega⟩
      simp only [Option.map_some, if_true, List.map_cons]
      rw [HASH.found, hash_search_all, hnext, ih hrest (by omega) f (by omega)]
      rfl

/-- The records with the key, cell by cell. -/
theorem HASH.elements_filter (hash : HASH α K) (key : K) :
    hash.elements.filter (fun x => hash.key_eq (hash.get_key x) key) =
      ((List.range hash.records).filter (hash.has_key key)).map fun j => (hash.array j).data := by
  rw [HASH.elements, List.filter_map]
  rfl

/-- With a hash function that agrees with the comparison, a record with the key is in the
    bucket of the key. -/
theorem HASH.Wf.label_of_has_key (h : hash.Wf) (hc : hash.Compat) (hr : 0 < hash.records)
    {j : Nat} (hj : hash.has_key key j = true) :
    hash.label j = my_hash_mask (calc_hash hash key) hash.blength hash.records := by
  rw [h.mask_eq hr, HASH.label, HASH.addr, rec_hashnr, calc_hash, calc_hash, hc _ _ hj]

/-- `my_hash_first` finds the first cell with the key in the chain of the key's bucket,
    or nothing if that bucket is empty. -/
theorem HASH.Wf.my_hash_first_eq (h : hash.Wf) (hc : hash.Compat) (hr : 0 < hash.records)
    (key : K) :
    (∃ l, Links.Chain hash.next NO_RECORD (my_hash_mask (calc_hash hash key) hash.blength hash.records) l ∧
      (∀ j, j ∈ l ↔ j < hash.records ∧ hash.label j =
        my_hash_mask (calc_hash hash key) hash.blength hash.records) ∧
      my_hash_first hash key = (l.find? (hash.has_key key)).map hash.found) ∨
    ((∀ j < hash.records, hash.has_key key j = false) ∧ my_hash_first hash key = none) := by
  set b := my_hash_mask (calc_hash hash key) hash.blength hash.records with hb
  have hblt : b < hash.records := h.mask_lt hr _
  obtain ⟨f, hf⟩ : ∃ f, hash.records = f + 1 := ⟨hash.records - 1, by omega⟩
  have hfirst : my_hash_first hash key =
      my_hash_first_from_hash_value.loop hash key hash.records true b := by
    rw [my_hash_first, my_hash_first_from_hash_value, if_pos (by omega)]
  rw [hf, my_hash_first_from_hash_value.loop_true, h.rec_mask_eq hr] at hfirst
  by_cases hlab : hash.label b = b
  · -- the bucket is in use: its chain starts at `b`
    left
    obtain ⟨l, hl, hmem⟩ := h.buckets.chain_of_label ⟨b, hblt, hlab⟩
    obtain ⟨rest, rfl⟩ : ∃ rest, l = b :: rest := by
      cases l with
      | nil => exact absurd ((hmem b).2 ⟨hblt, hlab⟩) List.not_mem_nil
      | cons c rest => exact ⟨rest, by rw [(Links.chain_cons.1 hl).1]⟩
    have hrest := (Links.chain_cons.1 hl).2.2
    have hlen := (hl.length_le fun j hj => ((hmem j).1 hj).1)
    refine ⟨b :: rest, hl, hmem, ?_⟩
    rw [hfirst, if_neg (not_not.2 hlab), my_hash_next.loop_chain hrest (by simp at hlen; omega),
      List.find?_cons]
    cases hash.has_key key b <;> simp
  · -- the cell `b` holds a record of another bucket, so no record has the key
    right
    have hnone : ∀ j < hash.records, hash.has_key key j = false := by
      intro j hj
      by_contra hk
      exact h.buckets.label_ne_of_ne hlab hj (h.label_of_has_key hc hr (by simpa using hk))
    refine ⟨hnone, ?_⟩
    rw [hfirst, hnone b hblt, if_pos hlab]
    rfl

/-- **`my_hash_first` and then `my_hash_next` find exactly the records with the key.** On
    a table that keeps the invariant, with a hash function that agrees with the comparison
    of keys, a caller that calls `my_hash_first` and then `my_hash_next` reaches the null
    pointer within `records + 1` calls, and what it collects on the way is the records of
    the table whose key is `key`, each as often as it is stored. -/
theorem hash_search_all_perm (h : hash.Wf) (hc : hash.Compat) (key : K) :
    ∃ found, hash_search_all hash key (hash.records + 1) (my_hash_first hash key) = some found ∧
      found.Perm (hash.elements.filter fun x => hash.key_eq (hash.get_key x) key) := by
  rw [HASH.elements_filter]
  rcases Nat.eq_zero_or_pos hash.records with hr | hr
  · -- an empty table answers the null pointer at once
    have hfirst : my_hash_first hash key = none := by
      simp [my_hash_first, my_hash_first_from_hash_value, hr]
    rw [hfirst, hr]
    exact ⟨[], rfl, List.Perm.refl _⟩
  rcases h.my_hash_first_eq hc hr key with ⟨l, hl, hmem, hfirst⟩ | ⟨hnone, hfirst⟩
  · have hlen := hl.length_le fun j hj => ((hmem j).1 hj).1
    rw [hfirst, hash_search_all_chain hl (by omega) hlen]
    refine ⟨_, rfl, List.Perm.map _ ((List.perm_ext_iff_of_nodup (hl.nodup.filter _)
      (List.nodup_range.filter _)).2 fun j => ?_)⟩
    simp only [List.mem_filter, List.mem_range, hmem]
    constructor
    · rintro ⟨⟨hj, -⟩, hk⟩
      exact ⟨hj, hk⟩
    · rintro ⟨hj, hk⟩
      exact ⟨⟨hj, h.label_of_has_key hc hr hk⟩, hk⟩
  · have hempty : (List.range hash.records).filter (hash.has_key key) = [] :=
      List.filter_eq_nil_iff.2 fun j hj => by simp [hnone j (List.mem_range.1 hj)]
    rw [hfirst, hempty]
    exact ⟨[], rfl, List.Perm.refl _⟩

/-- The table of natural numbers, each its own key, that holds `5` alone. -/
def five_table : HASH Nat Nat where
  blength := 2
  records := 1
  flags := HASH_UNIQUE
  array := fun _ => ⟨NO_RECORD, 5⟩
  get_key := id
  hash_function := Nat.toUInt32
  key_eq := fun a b => a == b

theorem five_table_wf : five_table.Wf := HASH.wf_single five_table rfl rfl rfl

theorem five_table_compat : five_table.Compat := fun k k' h => by
  rw [beq_iff_eq.1 h]

theorem hash_search_all_perm_five :
    five_table.Wf ∧ five_table.Compat ∧
      ∃ found, hash_search_all five_table 5 (five_table.records + 1) (my_hash_first five_table 5) =
          some found ∧
        found.Perm (five_table.elements.filter fun x => five_table.key_eq (five_table.get_key x) 5) :=
  ⟨five_table_wf, five_table_compat, hash_search_all_perm five_table_wf five_table_compat 5⟩

/-- **`my_hash_search` finds a record exactly when the table holds one with the key.** -/
theorem my_hash_search_isSome (h : hash.Wf) (hc : hash.Compat) (key : K) :
    (my_hash_search hash key).isSome ↔
      ∃ x ∈ hash.elements, hash.key_eq (hash.get_key x) key = true := by
  have hex : (∃ x ∈ hash.elements, hash.key_eq (hash.get_key x) key = true) ↔
      ∃ j < hash.records, hash.has_key key j = true := by
    simp [HASH.elements, HASH.has_key]
  rw [my_hash_search, Option.isSome_map, hex]
  rcases Nat.eq_zero_or_pos hash.records with hr | hr
  · -- an empty table has no records to find, and `my_hash_first` does not look
    have hnone : my_hash_first hash key = none := by
      simp [my_hash_first, my_hash_first_from_hash_value, hr]
    simp [hnone, hr]
  rcases h.my_hash_first_eq hc hr key with ⟨l, hl, hmem, hfirst⟩ | ⟨hnone, hfirst⟩
  · -- the records with the key are those of the chain of the key's bucket
    rw [hfirst, Option.isSome_map, List.find?_isSome]
    constructor
    · rintro ⟨j, hj, hk⟩
      exact ⟨j, ((hmem j).1 hj).1, hk⟩
    · rintro ⟨j, hj, hk⟩
      exact ⟨j, (hmem j).2 ⟨hj, h.label_of_has_key hc hr hk⟩, hk⟩
  · rw [hfirst]
    simp only [Option.isSome_none, Bool.false_eq_true, false_iff, not_exists, not_and]
    intro j hj hk
    rw [hnone j hj] at hk
    exact Bool.false_ne_true hk

end search_proof

/-! ## What `my_hash_check` checks -/

section check_proof

variable {hash : HASH α K}

/-- The inner loop of `my_hash_check` over a chain of records of bucket `i`, in cells in
    use, finds no error and counts them. -/
theorem my_hash_check.links_chain {i idx fuel found : Nat} {l : List Nat}
    (hl : Links.Chain hash.next NO_RECORD idx l)
    (hlive : ∀ c ∈ l, c < hash.records ∧
      my_hash_rec_mask hash (hash.array c) hash.blength hash.records = i)
    (hfuel : l.length ≤ fuel) (hfound : found + l.length ≤ hash.records) :
    my_hash_check.links hash hash.records hash.blength i fuel idx false found =
      (false, found + l.length) := by
  induction l generalizing idx fuel found with
  | nil =>
    obtain rfl := Links.chain_nil.1 hl
    cases fuel <;> simp [my_hash_check.links]
  | cons c l ih =>
    obtain ⟨hic, hcN, hl⟩ := Links.chain_cons.1 hl
    subst hic
    obtain ⟨f, rfl⟩ : ∃ f, fuel = f + 1 := ⟨fuel - 1, by simp at hfuel; omega⟩
    obtain ⟨hc, hci⟩ := hlive idx List.mem_cons_self
    simp only [List.length_cons] at hfound hfuel
    rw [my_hash_check.links, if_pos ⟨hcN, by omega⟩]
    simp only [Bool.false_or, ge_iff_le, not_le.2 hc, decide_false]
    rw [if_neg (not_not.2 hci)]
    refine (ih hl (fun d hd => hlive d (List.mem_cons_of_mem _ hd)) (by omega)
      (by omega)).trans ?_
    simp only [List.length_cons, Prod.mk.injEq, true_and]
    omega

/-- Counting the cells whose label is below `k + 1`: those below `k`, and those at `k`. -/
theorem length_filter_lt_succ (f : Nat → Nat) (k : Nat) (L : List Nat) :
    (L.filter fun j => f j < k + 1).length =
      (L.filter fun j => f j < k).length + (L.filter fun j => f j = k).length := by
  induction L with
  | nil => rfl
  | cons a L ih =>
    simp only [List.filter_cons]
    by_cases ha : f a < k
    · rw [if_pos (by simpa using Nat.lt_succ_of_lt ha), if_pos (by simpa using ha),
        if_neg (by simpa using Nat.ne_of_lt ha)]
      simp only [List.length_cons, ih]
      omega
    · by_cases hak : f a = k
      · rw [if_pos (by simp; omega), if_neg (by simpa using ha), if_pos (by simpa using hak)]
        simp only [List.length_cons, ih]
        omega
      · rw [if_neg (by simp; omega), if_neg (by simpa using ha), if_neg (by simpa using hak)]
        exact ih

/-- The outer loop of `my_hash_check`, on a table that keeps the invariant, over the cells
    below `k`: no error, and as many records found as are of the buckets below `k`. -/
theorem my_hash_check.foldl_cells (h : hash.Wf) (hr : 0 < hash.records) {k : Nat}
    (hk : k ≤ hash.records) :
    (List.range k).foldl (my_hash_check.cell hash) (false, 0) =
      (false, ((List.range hash.records).filter fun j => hash.label j < k).length) := by
  induction k with
  | zero => simp
  | succ k ih =>
    rw [List.range_succ, List.foldl_append, ih (by omega), List.foldl_cons, List.foldl_nil,
      length_filter_lt_succ]
    unfold my_hash_check.cell
    rw [h.rec_mask_eq hr k]
    dsimp only
    by_cases hkk : hash.label k = k
    · -- cell `k` heads bucket `k`: the inner loop walks its chain
      rw [if_pos hkk]
      obtain ⟨l, hl, hmem⟩ := h.buckets k (by omega)
      rw [hkk] at hl hmem
      obtain ⟨rest, rfl⟩ : ∃ rest, l = k :: rest := by
        cases l with
        | nil => exact absurd ((hmem k).2 ⟨by omega, hkk⟩) List.not_mem_nil
        | cons a rest => exact ⟨rest, by rw [(Links.chain_cons.1 hl).1]⟩
      have hcount : ((List.range hash.records).filter fun j => hash.label j = k).length =
          rest.length + 1 := by
        have hperm : ((List.range hash.records).filter fun j => hash.label j = k).Perm
            (k :: rest) :=
          (List.perm_ext_iff_of_nodup (List.nodup_range.filter _) hl.nodup).2 fun j => by
            simp [hmem j]
        simpa using hperm.length_eq
      have hbefore : ((List.range hash.records).filter fun j => hash.label j < k).length +
          ((List.range hash.records).filter fun j => hash.label j = k).length ≤
          hash.records := by
        rw [← length_filter_lt_succ]
        exact (List.length_filter_le _ _).trans (by simp)
      obtain ⟨-, -, hrest⟩ := Links.chain_cons.1 hl
      have hrest : Links.Chain hash.next NO_RECORD (hash.array k).next rest := hrest
      have hlive : ∀ c ∈ rest, c < hash.records ∧
          my_hash_rec_mask hash (hash.array c) hash.blength hash.records = k := fun c hc => by
        obtain ⟨hc1, hcl⟩ := (hmem c).1 (List.mem_cons_of_mem _ hc)
        exact ⟨hc1, (h.rec_mask_eq hr c).trans hcl⟩
      have hfuel : rest.length ≤ hash.records := by
        have := hl.length_le fun c hc => ((hmem c).1 hc).1
        simp only [List.length_cons] at this
        omega
      rw [my_hash_check.links_chain hrest hlive hfuel (by omega), hcount]
      simp only [Prod.mk.injEq, true_and]
      omega
    · -- no record is of bucket `k`
      rw [if_neg hkk]
      have hnone : ((List.range hash.records).filter fun j => hash.label j = k) = [] :=
        List.filter_eq_nil_iff.2 fun j hj => by
          simpa using h.buckets.label_ne_of_ne hkk (List.mem_range.1 hj)
      rw [hnone]
      rfl

/-- **`my_hash_check` passes on every table that keeps the invariant**: it finds no record
    in the chain of another bucket, no link out of the table, and all the records. -/
theorem my_hash_check_wf (h : hash.Wf) : my_hash_check hash = false := by
  rcases Nat.eq_zero_or_pos hash.records with hr | hr
  · simp [my_hash_check, hr]
  have hall : ((List.range hash.records).filter fun j => hash.label j < hash.records) =
      List.range hash.records :=
    List.filter_eq_self.2 fun j _ => by
      have := h.mask_lt hr (rec_hashnr hash (hash.array j).data)
      rw [h.mask_eq hr] at this
      exact decide_eq_true this
  simp only [my_hash_check, my_hash_check.foldl_cells h hr le_rfl, hall, List.length_range]
  simp

theorem my_hash_check_wf_five : five_table.Wf ∧ my_hash_check five_table = false :=
  ⟨five_table_wf, my_hash_check_wf five_table_wf⟩

end check_proof

end AliSql
