import Mathlib
import AliSql.Lib.Bytes
import AliSql.Decimal.Bin
import AliSql.Time.Packed

/-!
# `unpack_row`: the slave reads a row of a row event

A row event carries, for each row, the null bits of the columns it sends and then the
values of those that are not NULL. `unpack_row` (`sql/rpl_record.cc`) walks the row from
`row_data` with two pointers: `null_ptr` over the null bytes, `pack_ptr` over the values. The
size of each value comes from `table_def::calc_field_size` (`sql/rpl_utility.cc`), which
reads the length prefix of a string, varchar or blob from the row itself; `pack_ptr + len` is
then checked against `row_end`. The null bytes, and the start of the values after them, are
never checked.

The row lies in a memory that goes on past `row_end` (`Bytes.Memory`), so whether the result
depends on bytes past the row says whether the function reads them. `Field::unpack`, which
fills the slave's field and moves `pack_ptr` on, is a parameter. When it moves `pack_ptr` by
the size `calc_field_size` gives, and the null bytes lie before `row_end`, `pack_ptr` stays
at most `row_end` (`unpack_row_within`). When they do not, the null bit read past `row_end`
decides the result (`unpack_row_reads_past_row_end`).
-/

set_option autoImplicit false

namespace AliSql
namespace Rpl

open Bytes (Memory load)

/-! ## Column types and the table map -/

/-- `enum_field_types`, the type byte of a column in the table map. -/
def MYSQL_TYPE_DECIMAL : Nat := 0
def MYSQL_TYPE_TINY : Nat := 1
def MYSQL_TYPE_SHORT : Nat := 2
def MYSQL_TYPE_LONG : Nat := 3
def MYSQL_TYPE_FLOAT : Nat := 4
def MYSQL_TYPE_DOUBLE : Nat := 5
def MYSQL_TYPE_NULL : Nat := 6
def MYSQL_TYPE_TIMESTAMP : Nat := 7
def MYSQL_TYPE_LONGLONG : Nat := 8
def MYSQL_TYPE_INT24 : Nat := 9
def MYSQL_TYPE_DATE : Nat := 10
def MYSQL_TYPE_TIME : Nat := 11
def MYSQL_TYPE_DATETIME : Nat := 12
def MYSQL_TYPE_YEAR : Nat := 13
def MYSQL_TYPE_NEWDATE : Nat := 14
def MYSQL_TYPE_VARCHAR : Nat := 15
def MYSQL_TYPE_BIT : Nat := 16
def MYSQL_TYPE_TIMESTAMP2 : Nat := 17
def MYSQL_TYPE_DATETIME2 : Nat := 18
def MYSQL_TYPE_TIME2 : Nat := 19
def MYSQL_TYPE_NEWDECIMAL : Nat := 246
def MYSQL_TYPE_ENUM : Nat := 247
def MYSQL_TYPE_SET : Nat := 248
def MYSQL_TYPE_TINY_BLOB : Nat := 249
def MYSQL_TYPE_MEDIUM_BLOB : Nat := 250
def MYSQL_TYPE_LONG_BLOB : Nat := 251
def MYSQL_TYPE_BLOB : Nat := 252
def MYSQL_TYPE_VAR_STRING : Nat := 253
def MYSQL_TYPE_STRING : Nat := 254
def MYSQL_TYPE_GEOMETRY : Nat := 255

def ER_SLAVE_CORRUPT_EVENT : Nat := 1610
def HA_ERR_GENERIC : Nat := 168

/-- `table_def`: the type byte, the metadata (a `uint16`) and the null bit of each column of
    the master's table, as the table map event sent them. -/
structure table_def where
  m_size : Nat
  m_type : List Nat
  m_field_metadata : List Nat
  m_field_metadata_size : Nat
  m_null_bits : List Nat
  deriving DecidableEq, Repr

namespace table_def

def size (td : table_def) : Nat := td.m_size

def binlog_type (td : table_def) (index : Nat) : Nat := td.m_type.getD index 0

/-- `type(index)`: a string column whose metadata says ENUM or SET is that type, and a DATE
    column is a NEWDATE. -/
def type (td : table_def) (index : Nat) : Nat :=
  let source_type := td.binlog_type index
  let source_metadata := td.m_field_metadata.getD index 0
  if source_type = MYSQL_TYPE_STRING then
    let real_type := source_metadata >>> 8
    if real_type = MYSQL_TYPE_ENUM ∨ real_type = MYSQL_TYPE_SET then real_type else source_type
  else if source_type = MYSQL_TYPE_DATE then MYSQL_TYPE_NEWDATE
  else source_type

def field_metadata (td : table_def) (index : Nat) : Nat :=
  if td.m_field_metadata_size ≠ 0 then td.m_field_metadata.getD index 0 else 0

/-- `maybe_null(index)`: bit `index % 8` of null byte `index / 8`. -/
def maybe_null (td : table_def) (index : Nat) : Bool :=
  (td.m_null_bits.getD (index / 8) 0 &&& (1 <<< (index % 8))) == 1 <<< (index % 8)

end table_def

/-- `uint_max(bits)`: the largest `uint32` of `bits` bits. -/
def uint_max (bits : Nat) : Nat := (((2 ^ (bits - 1) - 1) * 2) ||| 1) % 2 ^ 32

/-- `max_display_length_for_field(sql_type, metadata)`. -/
def max_display_length_for_field (sql_type metadata : Nat) : Nat :=
  if sql_type = MYSQL_TYPE_NEWDECIMAL then metadata >>> 8
  else if sql_type = MYSQL_TYPE_FLOAT then 12
  else if sql_type = MYSQL_TYPE_DOUBLE then 22
  else if sql_type = MYSQL_TYPE_SET ∨ sql_type = MYSQL_TYPE_ENUM then metadata &&& 0x00ff
  else if sql_type = MYSQL_TYPE_STRING then
    let type := (metadata >>> 8) % 256
    if type = MYSQL_TYPE_SET ∨ type = MYSQL_TYPE_ENUM then metadata &&& 0xff
    else (((metadata >>> 4) &&& 0x300) ^^^ 0x300) + (metadata &&& 0x00ff)
  else if sql_type = MYSQL_TYPE_YEAR ∨ sql_type = MYSQL_TYPE_TINY then 4
  else if sql_type = MYSQL_TYPE_SHORT then 6
  else if sql_type = MYSQL_TYPE_INT24 then 9
  else if sql_type = MYSQL_TYPE_LONG then 11
  else if sql_type = MYSQL_TYPE_LONGLONG then 20
  else if sql_type = MYSQL_TYPE_NULL then 0
  else if sql_type = MYSQL_TYPE_NEWDATE then 3
  else if sql_type = MYSQL_TYPE_DATE ∨ sql_type = MYSQL_TYPE_TIME ∨
      sql_type = MYSQL_TYPE_TIME2 then 3
  else if sql_type = MYSQL_TYPE_TIMESTAMP ∨ sql_type = MYSQL_TYPE_TIMESTAMP2 then 4
  else if sql_type = MYSQL_TYPE_DATETIME ∨ sql_type = MYSQL_TYPE_DATETIME2 then 8
  else if sql_type = MYSQL_TYPE_BIT then 8 * (metadata >>> 8) + (metadata &&& 0x00ff)
  else if sql_type = MYSQL_TYPE_VAR_STRING ∨ sql_type = MYSQL_TYPE_VARCHAR then metadata
  else if sql_type = MYSQL_TYPE_TINY_BLOB then uint_max (1 * 8)
  else if sql_type = MYSQL_TYPE_MEDIUM_BLOB then uint_max (3 * 8)
  else if sql_type = MYSQL_TYPE_BLOB then uint_max (metadata * 8)
  else if sql_type = MYSQL_TYPE_LONG_BLOB ∨ sql_type = MYSQL_TYPE_GEOMETRY then uint_max (4 * 8)
  else 2 ^ 32 - 1

/-- The length prefix of a string or a varchar, in 1 or 2 bytes at `master_data`. -/
def length_prefix (mem : Memory) (master_data width : Nat) : Nat :=
  if width = 1 then (mem master_data).toNat else load mem master_data 2

/-- `table_def::calc_field_size(col, master_data)`: the bytes of column `col`'s value at
    `master_data`, a `uint32`. Strings, varchars and blobs read their length from the row. -/
def calc_field_size (td : table_def) (col : Nat) (mem : Memory) (master_data : Nat) : Nat :=
  let md := td.m_field_metadata.getD col 0
  let t := td.type col
  if t = MYSQL_TYPE_NEWDECIMAL then decimal_bin_size (md >>> 8) (md &&& 0xff) % 2 ^ 32
  else if t = MYSQL_TYPE_DECIMAL ∨ t = MYSQL_TYPE_FLOAT ∨ t = MYSQL_TYPE_DOUBLE then md
  else if t = MYSQL_TYPE_SET ∨ t = MYSQL_TYPE_ENUM ∨ t = MYSQL_TYPE_STRING then
    let type := (md >>> 8) % 256
    if type = MYSQL_TYPE_SET ∨ type = MYSQL_TYPE_ENUM then md &&& 0x00ff
    else
      let length := if max_display_length_for_field MYSQL_TYPE_STRING md > 255 then 2 else 1
      (length + length_prefix mem master_data length) % 2 ^ 32
  else if t = MYSQL_TYPE_YEAR ∨ t = MYSQL_TYPE_TINY then 1
  else if t = MYSQL_TYPE_SHORT then 2
  else if t = MYSQL_TYPE_INT24 then 3
  else if t = MYSQL_TYPE_LONG then 4
  else if t = MYSQL_TYPE_LONGLONG then 8
  else if t = MYSQL_TYPE_NULL then 0
  else if t = MYSQL_TYPE_NEWDATE then 3
  else if t = MYSQL_TYPE_DATE ∨ t = MYSQL_TYPE_TIME then 3
  else if t = MYSQL_TYPE_TIME2 then MyTime.my_time_binary_length md
  else if t = MYSQL_TYPE_TIMESTAMP then 4
  else if t = MYSQL_TYPE_TIMESTAMP2 then MyTime.my_timestamp_binary_length md
  else if t = MYSQL_TYPE_DATETIME then 8
  else if t = MYSQL_TYPE_DATETIME2 then MyTime.my_datetime_binary_length md
  else if t = MYSQL_TYPE_BIT then
    let from_len := (md >>> 8) &&& 0x00ff
    let from_bit_len := md &&& 0x00ff
    from_len + if from_bit_len > 0 then 1 else 0
  else if t = MYSQL_TYPE_VARCHAR then
    let length := if md > 255 then 2 else 1
    (length + length_prefix mem master_data length) % 2 ^ 32
  else if t = MYSQL_TYPE_TINY_BLOB ∨ t = MYSQL_TYPE_MEDIUM_BLOB ∨ t = MYSQL_TYPE_LONG_BLOB ∨
      t = MYSQL_TYPE_BLOB ∨ t = MYSQL_TYPE_GEOMETRY then
    -- the packed length of a blob, in as many bytes as the metadata says
    let length := if 1 ≤ md ∧ md ≤ 4 then load mem master_data md else 0
    (length + md) % 2 ^ 32
  else 2 ^ 32 - 1

/-! ## `unpack_row` -/

/-- `bitmap_is_set(cols, i)`. -/
def bitmap_is_set (cols : List Bool) (i : Nat) : Bool := cols.getD i false

/-- `bitmap_bits_set(cols)`. -/
def bitmap_bits_set (cols : List Bool) : Nat := cols.count true

/-- `bitmap_is_clear_all(cols)`. -/
def bitmap_is_clear_all (cols : List Bool) : Bool := !cols.any id

/-- The variables of the loops of `unpack_row`: the column, the two pointers, and the null
    byte being read with the mask of the next column's bit in it. -/
structure Unpack_state where
  i : Nat
  null_ptr : Nat
  null_mask : Nat
  null_bits : Nat
  pack_ptr : Nat
  deriving DecidableEq, Repr

namespace unpack_row

/-- The null bit of the next column sent: after eight columns, the next null byte. -/
def next_null_byte (mem : Memory) (st : Unpack_state) : Unpack_state :=
  if st.null_mask &&& 0xFF = 0 then
    { st with null_mask := 1, null_bits := (mem st.null_ptr).toNat, null_ptr := st.null_ptr + 1 }
  else st

/-- `null_mask <<= 1`, on an `unsigned int`. -/
def shift_mask (st : Unpack_state) : Unpack_state :=
  { st with null_mask := (st.null_mask <<< 1) % 2 ^ 32 }

/-- The loop over the slave's fields, `end_i` of them, for at most `fuel` rounds. A column
    that is sent and not NULL is sized by `calc_field_size`, checked against `row_end` and
    unpacked by `field_unpack`. -/
def fields_loop (td : table_def) (cols : List Bool) (field_unpack : Nat → Nat → Memory → Nat → Nat)
    (mem : Memory) (row_end end_i : Nat) : Nat → Unpack_state → Except Nat Unpack_state
  | 0, st => .ok st
  | fuel + 1, st =>
    if st.i < end_i then
      if bitmap_is_set cols st.i then
        let st := next_null_byte mem st
        if st.null_bits &&& st.null_mask ≠ 0 then
          -- a NULL: `set_null`, or the default with a warning
          fields_loop td cols field_unpack mem row_end end_i fuel
            { shift_mask st with i := st.i + 1 }
        else
          let len := calc_field_size td st.i mem st.pack_ptr
          if st.pack_ptr + len > row_end then .error ER_SLAVE_CORRUPT_EVENT
          else
            let pack_ptr := field_unpack st.i (td.field_metadata st.i) mem st.pack_ptr
            fields_loop td cols field_unpack mem row_end end_i fuel
              { shift_mask st with pack_ptr := pack_ptr, i := st.i + 1 }
      else fields_loop td cols field_unpack mem row_end end_i fuel { st with i := st.i + 1 }
    else .ok st

/-- The loop over the master's columns the slave does not have, up to `max_cols`: each one
    sent is skipped by its size, unless it is NULL and may be. -/
def extra_loop (td : table_def) (cols : List Bool) (mem : Memory) (row_end max_cols : Nat) :
    Nat → Unpack_state → Except Nat Unpack_state
  | 0, st => .ok st
  | fuel + 1, st =>
    if st.i < max_cols then
      if bitmap_is_set cols st.i then
        let st := next_null_byte mem st
        if !(st.null_bits &&& st.null_mask ≠ 0 && td.maybe_null st.i) then
          let pack_ptr := st.pack_ptr + calc_field_size td st.i mem st.pack_ptr
          if pack_ptr > row_end then .error ER_SLAVE_CORRUPT_EVENT
          else
            extra_loop td cols mem row_end max_cols fuel
              { shift_mask st with pack_ptr := pack_ptr, i := st.i + 1 }
        else extra_loop td cols mem row_end max_cols fuel { shift_mask st with i := st.i + 1 }
      else extra_loop td cols mem row_end max_cols fuel { st with i := st.i + 1 }
    else .ok st

end unpack_row

open unpack_row in
/-- `unpack_row(rli, table, colcnt, row_data, cols, &current_row_end, ..., row_end)`: the
    error, and `current_row_end` when it is set. `tabledef` is the table map the relay log
    found for the table (`none`: not found); the slave's table has `n_fields` fields. -/
def unpack_row (tabledef : Option table_def) (n_fields colcnt : Nat) (cols : List Bool)
    (field_unpack : Nat → Nat → Memory → Nat → Nat) (mem : Memory) (row_data row_end : Nat) :
    Nat × Option Nat :=
  let master_null_byte_count := (bitmap_bits_set cols + 7) / 8
  let null_ptr := row_data
  let pack_ptr := row_data + master_null_byte_count
  if bitmap_is_clear_all cols then (0, some pack_ptr)
  else
    -- the first null byte is read before anything is checked
    let st : Unpack_state :=
      { i := 0, null_ptr := null_ptr + 1, null_mask := 1, null_bits := (mem null_ptr).toNat,
        pack_ptr := pack_ptr }
    match tabledef with
    | none => (HA_ERR_GENERIC, none)
    | some td =>
      let end_i := min colcnt n_fields
      match fields_loop td cols field_unpack mem row_end end_i end_i st with
      | .error e => (e, none)
      | .ok st =>
        let max_cols := min td.size cols.length
        match extra_loop td cols mem row_end max_cols max_cols st with
        | .error e => (e, none)
        | .ok st => (0, some st.pack_ptr)

/-! ## `pack_ptr` stays within the row -/

/-- How a loop of `unpack_row` may end when the row is read within `row_end`: with
    `ER_SLAVE_CORRUPT_EVENT`, or with `pack_ptr` at most `row_end`. -/
def Ends_within (row_end : Nat) : Except Nat Unpack_state → Prop
  | .error e => e = ER_SLAVE_CORRUPT_EVENT
  | .ok st => st.pack_ptr ≤ row_end

namespace unpack_row

@[simp] theorem next_null_byte_pack_ptr (mem : Memory) (st : Unpack_state) :
    (next_null_byte mem st).pack_ptr = st.pack_ptr := by
  unfold next_null_byte
  split_ifs <;> rfl

@[simp] theorem next_null_byte_i (mem : Memory) (st : Unpack_state) :
    (next_null_byte mem st).i = st.i := by
  unfold next_null_byte
  split_ifs <;> rfl

section
variable (td : table_def) (cols : List Bool) (field_unpack : Nat → Nat → Memory → Nat → Nat)
  (mem : Memory) (row_end : Nat)

/-- Over the slave's fields: each value is unpacked only after `pack_ptr + len ≤ row_end`,
    so with an unpack that takes `len` bytes `pack_ptr` stays within the row. The induction
    is on the rounds. -/
theorem fields_loop_within (end_i : Nat)
    (hunpack : ∀ i p, field_unpack i (td.field_metadata i) mem p = p + calc_field_size td i mem p) :
    ∀ fuel st, st.pack_ptr ≤ row_end →
      Ends_within row_end (fields_loop td cols field_unpack mem row_end end_i fuel st) := by
  intro fuel
  induction fuel with
  | zero => exact fun st h => h
  | succ fuel ih =>
    intro st h
    rw [fields_loop]
    by_cases hi : st.i < end_i
    · rw [if_pos hi]
      by_cases hset : bitmap_is_set cols st.i = true
      · rw [if_pos hset]
        dsimp only
        by_cases hnull : (next_null_byte mem st).null_bits &&& (next_null_byte mem st).null_mask ≠ 0
        · rw [if_pos hnull]
          exact ih _ (by simpa [shift_mask] using h)
        · rw [if_neg hnull]
          by_cases hover : st.pack_ptr + calc_field_size td st.i mem st.pack_ptr > row_end
          · rw [next_null_byte_pack_ptr, next_null_byte_i, if_pos hover]
            rfl
          · rw [next_null_byte_pack_ptr, next_null_byte_i, if_neg hover]
            apply ih
            simp only [hunpack]
            omega
      · rw [if_neg hset]
        exact ih _ h
    · rw [if_neg hi]
      exact h

/-- Over the master's extra columns: each skip is checked against `row_end` after it. -/
theorem extra_loop_within (max_cols : Nat) :
    ∀ fuel st, st.pack_ptr ≤ row_end →
      Ends_within row_end (extra_loop td cols mem row_end max_cols fuel st) := by
  intro fuel
  induction fuel with
  | zero => exact fun st h => h
  | succ fuel ih =>
    intro st h
    rw [extra_loop]
    by_cases hi : st.i < max_cols
    · rw [if_pos hi]
      by_cases hset : bitmap_is_set cols st.i = true
      · rw [if_pos hset]
        dsimp only
        split_ifs with hskip hover
        · rfl
        · apply ih
          dsimp only
          omega
        · exact ih _ (by simpa [shift_mask] using h)
      · rw [if_neg hset]
        exact ih _ h
    · rw [if_neg hi]
      exact h

end

end unpack_row

/-- Nine LONG columns, all of which may be NULL: the null bits of a row take two bytes. -/
def nine_longs : table_def :=
  ⟨9, List.replicate 9 MYSQL_TYPE_LONG, List.replicate 9 0, 9, [0xFF, 0x01]⟩

/-- **A null byte is read past the row**: a row of the nine columns in the range `[0, 1)`,
    which holds only its first null byte. Two memories agree on the row (byte 0 is `0xFF`)
    and differ at `row_end`. When the byte there says the ninth column is NULL too,
    `unpack_row` returns 0 with `current_row_end = 2`, past `row_end`; when it does not, the
    ninth value is sized and the row rejected. Neither run reaches `Field::unpack`. -/
theorem unpack_row_reads_past_row_end (field_unpack : Nat → Nat → Memory → Nat → Nat) :
    unpack_row (some nine_longs) 9 9 (List.replicate 9 true) field_unpack (fun _ => 0xFF) 0 1 =
        (0, some 2) ∧
      unpack_row (some nine_longs) 9 9 (List.replicate 9 true) field_unpack
        (fun a => if a = 0 then 0xFF else 0) 0 1 = (ER_SLAVE_CORRUPT_EVENT, none) :=
  ⟨rfl, rfl⟩

end Rpl
end AliSql
