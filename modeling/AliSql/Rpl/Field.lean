import Mathlib
import AliSql.Rpl.Record
import AliSql.Time.StrToDatetime

/-!
# `Field::pack`, `Field::unpack` and the table map

`pack_row` (`sql/rpl_record.cc`) writes each value of a row with
`field->pack(to, from, field->max_data_length(), TRUE)`. The slave sizes it with
`table_def::calc_field_size` and reads it with `field->unpack(to, from, metadata, TRUE)`.
The three decide on their own how long a value is: `pack` from the field (`field_length`,
`packlength`, `bin_size`, `dec`), `calc_field_size` and `unpack` from the metadata word of the
column. That word is what the field saved in the table map (`do_save_field_metadata`, one
field after the other in `Table_map_log_event::save_field_metadata`), read back by the
`table_def` constructor according to the column's binlog type.

The fields modelled are those of `sql/field.cc` that a row event sizes from metadata or from a
length prefix: VARCHAR, CHAR and BINARY, the blobs, NEWDECIMAL, BIT, TIME(n), DATETIME(n) and
TIMESTAMP(n), and the integers. The build is little-endian, so `handle_int16` and its
siblings copy the bytes. A record is a memory and the address of the field in it; what `pack`
writes is the list of bytes it returns.

What a value takes is said once, by its `Layout`: a fixed number of bytes, or a length of `w`
bytes and that many bytes after it. Then:

* `table_map_def_describes`: the `table_def` the slave builds from the table map of a table
  has, for every column, the field's binlog type and metadata word (`Describes`);
* `pack_fits`: what `pack` writes has the field's layout;
* `calc_field_size_of_describes`, `unpack_of_describes`: on a column so described,
  `calc_field_size` is the layout's size in a `uint32`, and `unpack` moves past the whole of it;
* `calc_field_size_of_pack`, `unpack_of_pack`: so `unpack` takes exactly what `pack` wrote, and
  `calc_field_size` counts it when it is below `2^32` bytes (`pack_length_lt`: always, but for a
  LONGBLOB). For a LONGBLOB value of `2^32 - 4` bytes or more the `uint32` sum of its length
  and its `packlength` wraps (`calc_field_size_wraps_longblob`).
-/

set_option autoImplicit false

namespace AliSql
namespace Rpl

open Bytes (Memory load read split Holds)

/-! ## The fields -/

def DECIMAL_MAX_PRECISION : Nat := 65
def DECIMAL_MAX_SCALE : Nat := 30

/-- `portable_sizeof_char_ptr`: a blob's record holds its length and then a pointer. -/
def portable_sizeof_char_ptr : Nat := 8

/-- The part of `CHARSET_INFO` that `Field_string::pack` calls: `charpos(b, e, pos)` is the
    byte length of the first `pos` characters of `[b, e)`; `lengthsp(b, length)` is the
    length without trailing spaces, never more than `length`. -/
structure CHARSET_INFO where
  mbmaxlen : Nat
  pad_char : UInt8
  charpos : Memory → Nat → Nat → Nat → Nat
  lengthsp : Memory → Nat → Nat → Nat
  lengthsp_le : ∀ mem b length, lengthsp mem b length ≤ length

/-- `Field_string`: CHAR or BINARY of `field_length` bytes, below 1024 as
    `do_save_field_metadata` asserts. -/
structure Field_string where
  field_length : Nat
  field_charset : CHARSET_INFO
  field_length_lt : field_length < 1024

/-- `Field_varstring`: `length_bytes` is `HA_VARCHAR_PACKLENGTH(field_length)`, as
    `make_field` builds it. -/
structure Field_varstring where
  field_length : Nat
  length_bytes : Nat
  field_length_le : field_length ≤ 65535
  length_bytes_eq : length_bytes = if field_length < 256 then 1 else 2

/-- `Field_blob`: the length of a value takes `packlength` bytes, 1 to 4 (TINYBLOB, BLOB,
    MEDIUMBLOB, LONGBLOB). -/
structure Field_blob where
  packlength : Nat
  packlength_pos : 1 ≤ packlength
  packlength_le : packlength ≤ 4

/-- `Field_new_decimal`, within the bounds its constructor asserts. -/
structure Field_new_decimal where
  precision : Nat
  dec : Nat
  precision_le : precision ≤ DECIMAL_MAX_PRECISION
  dec_le : dec ≤ DECIMAL_MAX_SCALE

/-- `bin_size`: `my_decimal_get_binary_size(precision, dec)`. -/
def Field_new_decimal.bin_size (f : Field_new_decimal) : Nat := decimal_bin_size f.precision f.dec

/-- `Field_bit` and `Field_bit_as_char`: BIT(`field_length`). `Field_bit` keeps the
    `bit_len` odd bits with the null bits, at `bit_ptr` and `bit_ofs`, and the whole bytes at
    `ptr`; `Field_bit_as_char` keeps only whole bytes. -/
structure Field_bit where
  field_length : Nat
  ptr : Nat
  bit_ptr : Nat
  bit_ofs : Nat
  bit_len : Nat
  bytes_in_rec : Nat
  field_length_le : field_length ≤ 64
  layout : (bit_len = field_length &&& 7 ∧ bytes_in_rec = field_length / 8) ∨
    (bit_len = 0 ∧ bytes_in_rec = (field_length + 7) / 8)

/-- The fields of a table whose values a row event carries. The temporal ones have `dec`
    fractional digits. -/
inductive Field where
  | tiny
  | short
  | medium
  | long
  | longlong
  | new_decimal (f : Field_new_decimal)
  | timef (dec : Nat) (hdec : dec ≤ MyTime.DATETIME_MAX_DECIMALS)
  | datetimef (dec : Nat) (hdec : dec ≤ MyTime.DATETIME_MAX_DECIMALS)
  | timestampf (dec : Nat) (hdec : dec ≤ MyTime.DATETIME_MAX_DECIMALS)
  | bit (f : Field_bit)
  | string (f : Field_string)
  | varstring (f : Field_varstring)
  | blob (f : Field_blob)

/-! ## `pack` and `unpack` of each field -/

namespace Field

/-- `Field::pack`: `pack_length()` bytes of the record, but at most `max_length`. -/
def pack_default (pack_length : Nat) (rec : Memory) (from_ max_length : Nat) : List UInt8 :=
  read rec from_ (min pack_length max_length)

/-- `Field::unpack`: where the value at `from_` ends. Metadata above 255 holds the master's
    real type over its length. -/
def unpack_default (pack_length real_type from_ param_data : Nat) : Nat :=
  let from_type := if param_data > 255 then (param_data &&& 0xff00) >>> 8 else 0
  let param_data := if param_data > 255 then param_data &&& 0x00ff else param_data
  if param_data = 0 ∨ pack_length = param_data ∨ from_type ≠ real_type then from_ + pack_length
  else from_ + if param_data ≠ 0 ∧ param_data < pack_length then param_data else pack_length

/-- `Field_tiny::pack` and `pack_int16`, `pack_int32`, `pack_int64`: the `n` bytes of the
    record, whatever `max_length` is. -/
def pack_int (n : Nat) (rec : Memory) (from_ : Nat) : List UInt8 := read rec from_ n

end Field

/-- `Field_longstr::max_data_length`: the bytes of a string and its length. -/
def Field_longstr.max_data_length (field_length : Nat) : Nat :=
  field_length + if field_length > 255 then 2 else 1

namespace Field_string

/-- `while (length && from[length-1] == pad_char) length--`. -/
def strip_pad (rec : Memory) (from_ : Nat) (pad_char : UInt8) : Nat → Nat
  | 0 => 0
  | length + 1 =>
    if rec (from_ + length) = pad_char then strip_pad rec from_ pad_char length else length + 1

/-- `Field_string::pack`: the length of the value without its padding, in one byte, or two
    when `field_length > 255`, then its bytes. -/
def pack (f : Field_string) (rec : Memory) (from_ max_length : Nat) : List UInt8 :=
  let cs := f.field_charset
  let length := min f.field_length max_length
  let local_char_length := max_length / cs.mbmaxlen
  let local_char_length :=
    if length > local_char_length then cs.charpos rec from_ (from_ + length) local_char_length
    else local_char_length
  let length := min length local_char_length
  let length :=
    if cs.mbmaxlen = 1 then strip_pad rec from_ cs.pad_char length else cs.lengthsp rec from_ length
  split (if f.field_length > 255 then 2 else 1) length ++ read rec from_ length

/-- `Field_string::unpack`: the master's `field_length` from the metadata decides whether the
    length takes one byte or two. -/
def unpack (f : Field_string) (mem : Memory) (from_ param_data : Nat) : Nat :=
  let from_length :=
    if param_data ≠ 0 then (((param_data >>> 4) &&& 0x300) ^^^ 0x300) + (param_data &&& 0x00ff)
    else f.field_length
  if from_length > 255 then from_ + 2 + load mem from_ 2 else from_ + 1 + (mem from_).toNat

/-- `Field_string::do_save_field_metadata`: the real type with bits 8 and 9 of
    `field_length` folded into it, then the low byte of `field_length`. -/
def do_save_field_metadata (f : Field_string) : List UInt8 :=
  [UInt8.ofNat (MYSQL_TYPE_STRING ^^^ ((f.field_length &&& 0x300) >>> 4)),
    UInt8.ofNat (f.field_length &&& 0xFF)]

end Field_string

namespace Field_varstring

/-- `Field_varstring::pack`: the length, cut to `max_length` and `field_length`, in one byte
    or two as `max_length > 255`, then the bytes after the record's own length. -/
def pack (f : Field_varstring) (rec : Memory) (from_ max_length : Nat) : List UInt8 :=
  let length := if f.length_bytes = 1 then (rec from_).toNat else load rec from_ 2
  let max_length := min max_length f.field_length
  let length := min length max_length
  split (if max_length > 255 then 2 else 1) length ++ read rec (from_ + f.length_bytes) length

/-- `Field_varstring::unpack`: a master's `field_length` below the slave's decides the
    width of the length; otherwise `length_bytes` does. -/
def unpack (f : Field_varstring) (mem : Memory) (from_ param_data : Nat) : Nat :=
  let l_bytes :=
    if param_data ≠ 0 ∧ param_data < f.field_length then (if param_data ≤ 255 then 1 else 2)
    else f.length_bytes
  if l_bytes = 1 then from_ + 1 + (mem from_).toNat else from_ + 2 + load mem from_ 2

/-- `Field_varstring::do_save_field_metadata`: `int2store(field_length)`. -/
def do_save_field_metadata (f : Field_varstring) : List UInt8 := split 2 f.field_length

end Field_varstring

namespace Field_blob

/-- `Field_blob::get_length(pos, packlength)`. -/
def get_length (mem : Memory) (pos packlength_arg : Nat) : Nat :=
  if 1 ≤ packlength_arg ∧ packlength_arg ≤ 4 then load mem pos packlength_arg else 0

/-- `Field_blob::store_length(packlength, number)`: the bytes it writes. -/
def store_length (i_packlength i_number : Nat) : List UInt8 :=
  if 1 ≤ i_packlength ∧ i_packlength ≤ 4 then split i_packlength i_number else []

/-- `Field_blob::max_data_length`: the largest length `packlength` bytes hold, a `uint32`. -/
def max_data_length (f : Field_blob) : Nat := ((1 <<< (f.packlength * 8)) - 1) % 2 ^ 32

/-- `Field_blob::pack`: the length, at most `max_length`, in `packlength` bytes, then all
    `length` bytes of the value, which the pointer after the length points to. -/
def pack (f : Field_blob) (rec : Memory) (from_ max_length : Nat) : List UInt8 :=
  let length := get_length rec from_ f.packlength
  let data := load rec (from_ + f.packlength) portable_sizeof_char_ptr
  store_length f.packlength (min length max_length) ++ read rec data length

/-- `Field_blob::unpack`: the length in the master's `packlength` bytes, then the value. -/
def unpack (f : Field_blob) (mem : Memory) (from_ param_data : Nat) : Nat :=
  let master_packlength := if param_data > 0 then param_data &&& 0xFF else f.packlength
  let length := get_length mem from_ master_packlength
  from_ + master_packlength + length

/-- `Field_blob::do_save_field_metadata`: `pack_length_no_ptr()`. -/
def do_save_field_metadata (f : Field_blob) : List UInt8 := [UInt8.ofNat f.packlength]

end Field_blob

namespace Field_new_decimal

/-- `Field_new_decimal::unpack`: a master's smaller precision or scale is converted; the
    value read is `bin_size` bytes of the master's. -/
def unpack (f : Field_new_decimal) (from_ param_data : Nat) : Nat :=
  if param_data = 0 then Field.unpack_default f.bin_size MYSQL_TYPE_NEWDECIMAL from_ param_data
  else
    let from_precision := (param_data &&& 0xff00) >>> 8
    let from_decimal := param_data &&& 0x00ff
    let length := f.bin_size
    let from_pack_len := decimal_bin_size from_precision from_decimal
    from_ + if param_data ≠ 0 ∧ from_pack_len < length then from_pack_len else length

/-- `Field_new_decimal::do_save_field_metadata`. -/
def do_save_field_metadata (f : Field_new_decimal) : List UInt8 :=
  [UInt8.ofNat f.precision, UInt8.ofNat f.dec]

end Field_new_decimal

namespace Field_bit

/-- `get_rec_bits(bit_ptr, bit_ofs, bit_len)`. -/
def get_rec_bits (mem : Memory) (bit_ptr bit_ofs bit_len : Nat) : Nat :=
  (load mem bit_ptr 2 >>> bit_ofs) &&& ((1 <<< bit_len) - 1)

/-- `Field_bit::max_data_length`. -/
def max_data_length (f : Field_bit) : Nat := (f.field_length + 7) / 8

/-- `Field_bit::pack`: the odd bits in a byte of their own, then the whole bytes. The odd
    bits of the record at `from_` lie as far from it as `bit_ptr` from `ptr`. -/
def pack (f : Field_bit) (rec : Memory) (from_ max_length : Nat) : List UInt8 :=
  let bits :=
    if f.bit_len > 0 then [UInt8.ofNat (get_rec_bits rec (f.bit_ptr + from_ - f.ptr) f.bit_ofs f.bit_len)]
    else []
  let length := min f.bytes_in_rec (max_length - if f.bit_len > 0 then 1 else 0)
  bits ++ read rec from_ length

/-- `Field_bit::unpack`: the master's bytes and odd bits from the metadata; a master of
    another size is read by its own size. -/
def unpack (f : Field_bit) (from_ param_data : Nat) : Nat :=
  let from_len := (param_data >>> 8) &&& 0x00ff
  let from_bit_len := param_data &&& 0x00ff
  if param_data = 0 ∨ (from_bit_len = f.bit_len ∧ from_len = f.bytes_in_rec) then
    from_ + (if f.bit_len > 0 then 1 else 0) + f.bytes_in_rec
  else from_ + (from_len + if from_bit_len > 0 then 1 else 0)

/-- `Field_bit::do_save_field_metadata`: from `field_length`, which both classes share. -/
def do_save_field_metadata (f : Field_bit) : List UInt8 :=
  [UInt8.ofNat (f.field_length % 8), UInt8.ofNat (f.field_length / 8)]

end Field_bit

namespace Field

/-- `binlog_type()`, the column's type byte in the table map. -/
def binlog_type : Field → Nat
  | tiny => MYSQL_TYPE_TINY
  | short => MYSQL_TYPE_SHORT
  | medium => MYSQL_TYPE_INT24
  | long => MYSQL_TYPE_LONG
  | longlong => MYSQL_TYPE_LONGLONG
  | new_decimal _ => MYSQL_TYPE_NEWDECIMAL
  | timef .. => MYSQL_TYPE_TIME2
  | datetimef .. => MYSQL_TYPE_DATETIME2
  | timestampf .. => MYSQL_TYPE_TIMESTAMP2
  | bit _ => MYSQL_TYPE_BIT
  | string _ => MYSQL_TYPE_STRING
  | varstring _ => MYSQL_TYPE_VARCHAR
  | blob _ => MYSQL_TYPE_BLOB

/-- `max_data_length()`: `pack_length()`, but for the strings (`Field_longstr`), the blobs
    and BIT. -/
def max_data_length : Field → Nat
  | tiny => 1
  | short => 2
  | medium => 3
  | long => 4
  | longlong => 8
  | new_decimal f => f.bin_size
  | timef dec _ => MyTime.my_time_binary_length dec
  | datetimef dec _ => MyTime.my_datetime_binary_length dec
  | timestampf dec _ => MyTime.my_timestamp_binary_length dec
  | bit f => f.max_data_length
  | string f => Field_longstr.max_data_length f.field_length
  | varstring f => Field_longstr.max_data_length f.field_length
  | blob f => f.max_data_length

/-- `pack(to, from, max_length)`: the bytes written for the record at `from_`. -/
def pack : Field → Memory → Nat → Nat → List UInt8
  | tiny, rec, from_, _ => pack_int 1 rec from_
  | short, rec, from_, _ => pack_int 2 rec from_
  | medium, rec, from_, max_length => pack_default 3 rec from_ max_length
  | long, rec, from_, _ => pack_int 4 rec from_
  | longlong, rec, from_, _ => pack_int 8 rec from_
  | new_decimal f, rec, from_, max_length => pack_default f.bin_size rec from_ max_length
  | timef dec _, rec, from_, max_length =>
    pack_default (MyTime.my_time_binary_length dec) rec from_ max_length
  | datetimef dec _, rec, from_, max_length =>
    pack_default (MyTime.my_datetime_binary_length dec) rec from_ max_length
  | timestampf dec _, rec, from_, max_length =>
    pack_default (MyTime.my_timestamp_binary_length dec) rec from_ max_length
  | bit f, rec, from_, max_length => f.pack rec from_ max_length
  | string f, rec, from_, max_length => f.pack rec from_ max_length
  | varstring f, rec, from_, max_length => f.pack rec from_ max_length
  | blob f, rec, from_, max_length => f.pack rec from_ max_length

/-- `unpack(to, from, param_data)`: where the value read at `from_` ends. -/
def unpack : Field → Memory → Nat → Nat → Nat
  | tiny, _, from_, _ => from_ + 1
  | short, _, from_, _ => from_ + 2
  | medium, _, from_, param_data => unpack_default 3 MYSQL_TYPE_INT24 from_ param_data
  | long, _, from_, _ => from_ + 4
  | longlong, _, from_, _ => from_ + 8
  | new_decimal f, _, from_, param_data => f.unpack from_ param_data
  | timef dec _, _, from_, param_data =>
    unpack_default (MyTime.my_time_binary_length dec) MYSQL_TYPE_TIME2 from_ param_data
  | datetimef dec _, _, from_, param_data =>
    unpack_default (MyTime.my_datetime_binary_length dec) MYSQL_TYPE_DATETIME2 from_ param_data
  | timestampf dec _, _, from_, param_data =>
    unpack_default (MyTime.my_timestamp_binary_length dec) MYSQL_TYPE_TIMESTAMP2 from_ param_data
  | bit f, _, from_, param_data => f.unpack from_ param_data
  | string f, mem, from_, param_data => f.unpack mem from_ param_data
  | varstring f, mem, from_, param_data => f.unpack mem from_ param_data
  | blob f, mem, from_, param_data => f.unpack mem from_ param_data

/-- `save_field_metadata(first_byte)`: the bytes written; the integers write none. -/
def do_save_field_metadata : Field → List UInt8
  | tiny | short | medium | long | longlong => []
  | new_decimal f => f.do_save_field_metadata
  | timef dec _ | datetimef dec _ | timestampf dec _ => [UInt8.ofNat dec]
  | bit f => f.do_save_field_metadata
  | string f => f.do_save_field_metadata
  | varstring f => f.do_save_field_metadata
  | blob f => f.do_save_field_metadata

end Field

/-! ## The table map -/

namespace table_def

/-- One round of the loop of the constructor: the metadata word of a column of binlog type
    `t` from the bytes at `p`, and how many bytes it takes. Two bytes never overflow the
    `uint16`. -/
def read_field_metadata (mem : Memory) (p t : Nat) : Nat × Nat :=
  let byte (k : Nat) := (mem (p + k)).toNat
  if t = MYSQL_TYPE_TINY_BLOB ∨ t = MYSQL_TYPE_BLOB ∨ t = MYSQL_TYPE_MEDIUM_BLOB ∨
      t = MYSQL_TYPE_LONG_BLOB ∨ t = MYSQL_TYPE_DOUBLE ∨ t = MYSQL_TYPE_FLOAT ∨
      t = MYSQL_TYPE_GEOMETRY then (byte 0, 1)
  else if t = MYSQL_TYPE_SET ∨ t = MYSQL_TYPE_ENUM ∨ t = MYSQL_TYPE_STRING then
    ((byte 0 <<< 8) + byte 1, 2)
  else if t = MYSQL_TYPE_BIT then (byte 0 + (byte 1 <<< 8), 2)
  else if t = MYSQL_TYPE_VARCHAR then (load mem p 2, 2)
  else if t = MYSQL_TYPE_NEWDECIMAL then ((byte 0 <<< 8) + byte 1, 2)
  else if t = MYSQL_TYPE_TIME2 ∨ t = MYSQL_TYPE_DATETIME2 ∨ t = MYSQL_TYPE_TIMESTAMP2 then
    (byte 0, 1)
  else (0, 0)

/-- The loop of the constructor over the columns' types, from byte `index` of the
    metadata at `field_metadata`. -/
def read_metadata_loop (mem : Memory) (field_metadata : Nat) : List Nat → Nat → List Nat
  | [], _ => []
  | t :: types, index =>
    let r := read_field_metadata mem (field_metadata + index) t
    r.1 :: read_metadata_loop mem field_metadata types (index + r.2)

end table_def

set_option linter.dupNamespace false in
/-- `table_def::table_def(types, size, field_metadata, metadata_size, null_bitmap, flags)`,
    with the table map's metadata at address `field_metadata` of `mem`. The metadata stays 0
    when the table map has none. -/
def table_def.table_def (mem : Memory) (types : List Nat) (size field_metadata metadata_size : Nat)
    (null_bitmap : List Nat) : table_def where
  m_size := size
  m_type := types
  m_field_metadata :=
    if size ≠ 0 ∧ metadata_size ≠ 0 then table_def.read_metadata_loop mem field_metadata types 0
    else List.replicate size 0
  m_field_metadata_size := metadata_size
  m_null_bits := null_bitmap

namespace Table_map_log_event

/-- `m_coltype`: the `binlog_type()` of each field. -/
def m_coltype (fields : List Field) : List Nat := fields.map Field.binlog_type

/-- `save_field_metadata()`: what each field saves, one after the other. -/
def save_field_metadata (fields : List Field) : List UInt8 :=
  fields.flatMap Field.do_save_field_metadata

end Table_map_log_event

open Table_map_log_event in
/-- The `table_def` the slave builds from the table map of a table of `fields`, whose
    metadata it finds at address `field_metadata` of `mem`. -/
def table_map_def (fields : List Field) (null_bits : List Nat) (mem : Memory)
    (field_metadata : Nat) : table_def :=
  table_def.table_def mem (m_coltype fields) fields.length field_metadata
    (save_field_metadata fields).length null_bits

/-! ## What a value takes -/

/-- How long a packed value is: `n` bytes, or a length in `w` bytes and that many bytes. -/
inductive Layout where
  | fixed (n : Nat)
  | prefixed (w : Nat)

namespace Layout

/-- The bytes `bs` are a value of the layout. -/
def Fits : Layout → List UInt8 → Prop
  | fixed n, bs => bs.length = n
  | prefixed w, bs => ∃ data : List UInt8, bs = split w data.length ++ data ∧ data.length < 256 ^ w

/-- The bytes a value of the layout takes at `p`. -/
def size : Layout → Memory → Nat → Nat
  | fixed n, _, _ => n
  | prefixed w, mem, p => w + load mem p w

theorem fits_split_read {w length : Nat} (rec : Memory) (q : Nat) (h : length < 256 ^ w) :
    (prefixed w).Fits (split w length ++ read rec q length) :=
  ⟨read rec q length, by rw [Bytes.length_read], by rwa [Bytes.length_read]⟩

/-- Where a memory holds a value, the size read there is the value's length. -/
theorem size_of_fits {l : Layout} {bs : List UInt8} {mem : Memory} {p : Nat} (hfit : l.Fits bs)
    (h : Holds mem p bs) : l.size mem p = bs.length := by
  cases l with
  | fixed n => exact hfit.symm
  | prefixed w =>
    obtain ⟨data, rfl, hlt⟩ := hfit
    rw [size, Bytes.load_of_holds_split_append h hlt, List.length_append, Bytes.length_split]

end Layout

/-- The layout of a field's values. -/
def Field.layout : Field → Layout
  | .tiny => .fixed 1
  | .short => .fixed 2
  | .medium => .fixed 3
  | .long => .fixed 4
  | .longlong => .fixed 8
  | .new_decimal f => .fixed f.bin_size
  | .timef dec _ => .fixed (MyTime.my_time_binary_length dec)
  | .datetimef dec _ => .fixed (MyTime.my_datetime_binary_length dec)
  | .timestampf dec _ => .fixed (MyTime.my_timestamp_binary_length dec)
  | .bit f => .fixed ((f.field_length + 7) / 8)
  | .string f => .prefixed (if f.field_length > 255 then 2 else 1)
  | .varstring f => .prefixed (if f.field_length > 255 then 2 else 1)
  | .blob f => .prefixed f.packlength

/-! ## What `pack` writes -/

theorem and_ff (x : Nat) : x &&& 0xFF = x % 256 := Nat.and_two_pow_sub_one_eq_mod x 8

theorem and_seven (x : Nat) : x &&& 7 = x % 8 := Nat.and_two_pow_sub_one_eq_mod x 3

namespace Field_string

theorem strip_pad_le (rec : Memory) (from_ : Nat) (pad_char : UInt8) :
    ∀ length, strip_pad rec from_ pad_char length ≤ length
  | 0 => le_refl _
  | length + 1 => by
    rw [strip_pad]
    split_ifs
    · exact Nat.le_succ_of_le (strip_pad_le rec from_ pad_char length)
    · exact le_refl _

/-- `pack` writes a length of at most `field_length` and that many bytes of the record. -/
theorem pack_spec (f : Field_string) (rec : Memory) (from_ max_length : Nat) :
    ∃ length ≤ f.field_length, f.pack rec from_ max_length =
      split (if f.field_length > 255 then 2 else 1) length ++ read rec from_ length := by
  refine ⟨_, ?_, rfl⟩
  -- the padding is cut from at most `min field_length max_length` bytes
  by_cases h1 : f.field_charset.mbmaxlen = 1
  · rw [if_pos h1]
    exact (strip_pad_le _ _ _ _).trans ((min_le_left _ _).trans (min_le_left _ _))
  · rw [if_neg h1]
    exact (f.field_charset.lengthsp_le _ _ _).trans ((min_le_left _ _).trans (min_le_left _ _))

end Field_string

namespace Field_varstring

/-- At `max_data_length`, `pack` writes the record's length cut to `field_length`, in the
    width `field_length` decides. -/
theorem pack_spec (f : Field_varstring) (rec : Memory) (from_ : Nat) :
    ∃ length ≤ f.field_length,
      f.pack rec from_ (Field_longstr.max_data_length f.field_length) =
        split (if f.field_length > 255 then 2 else 1) length ++ read rec (from_ + f.length_bytes) length := by
  have hmax : min (Field_longstr.max_data_length f.field_length) f.field_length = f.field_length := by
    unfold Field_longstr.max_data_length
    omega
  refine ⟨_, ?_, by rw [pack, hmax]⟩
  exact min_le_right _ _

end Field_varstring

namespace Field_blob

theorem max_data_length_eq (f : Field_blob) : f.max_data_length = 256 ^ f.packlength - 1 := by
  have h1 := f.packlength_pos
  have h4 := f.packlength_le
  unfold max_data_length
  interval_cases f.packlength <;> rfl

theorem get_length_eq (f : Field_blob) (mem : Memory) (pos : Nat) :
    get_length mem pos f.packlength = load mem pos f.packlength :=
  if_pos ⟨f.packlength_pos, f.packlength_le⟩

/-- At `max_data_length`, `pack` writes the whole length of the record's value. -/
theorem pack_spec (f : Field_blob) (rec : Memory) (from_ : Nat) :
    f.pack rec from_ f.max_data_length =
      split f.packlength (load rec from_ f.packlength) ++
        read rec (load rec (from_ + f.packlength) portable_sizeof_char_ptr)
          (load rec from_ f.packlength) := by
  have hlt := Bytes.load_lt rec from_ f.packlength
  have hmin : min (load rec from_ f.packlength) f.max_data_length = load rec from_ f.packlength := by
    rw [max_data_length_eq]
    omega
  rw [pack, get_length_eq, hmin, store_length, if_pos ⟨f.packlength_pos, f.packlength_le⟩]

end Field_blob

namespace Field_bit

theorem max_data_length_eq (f : Field_bit) :
    f.max_data_length = (if f.bit_len > 0 then 1 else 0) + f.bytes_in_rec := by
  unfold max_data_length
  rcases f.layout with ⟨hb, hy⟩ | ⟨hb, hy⟩
  · rw [hb, hy, and_seven]
    split_ifs <;> omega
  · rw [hb, hy]
    simp

theorem pack_length (f : Field_bit) (rec : Memory) (from_ : Nat) :
    (f.pack rec from_ f.max_data_length).length = f.max_data_length := by
  have hmax := max_data_length_eq f
  rw [pack]
  split_ifs with hb <;> simp [hmax, hb, Nat.add_comm]

end Field_bit

/-- `pack` at `max_data_length` writes a value of the field's layout. -/
theorem Field.pack_fits (f : Field) (rec : Memory) (from_ : Nat) :
    f.layout.Fits (f.pack rec from_ f.max_data_length) := by
  cases f with
  | tiny | short | long | longlong => simp [pack, pack_int, layout, Layout.Fits]
  | medium | new_decimal | timef | datetimef | timestampf =>
    simp [pack, pack_default, layout, Layout.Fits, max_data_length]
  | bit f =>
    show (f.pack rec from_ f.max_data_length).length = (f.field_length + 7) / 8
    rw [Field_bit.pack_length]
    rfl
  | string f =>
    obtain ⟨length, hle, heq⟩ := Field_string.pack_spec f rec from_
      (Field_longstr.max_data_length f.field_length)
    show (Layout.prefixed _).Fits (f.pack rec from_ (Field_longstr.max_data_length f.field_length))
    rw [heq]
    apply Layout.fits_split_read
    have := f.field_length_lt
    split_ifs <;> omega
  | varstring f =>
    obtain ⟨length, hle, heq⟩ := Field_varstring.pack_spec f rec from_
    show (Layout.prefixed _).Fits (f.pack rec from_ (Field_longstr.max_data_length f.field_length))
    rw [heq]
    apply Layout.fits_split_read
    have := f.field_length_le
    split_ifs <;> omega
  | blob f =>
    show (Layout.prefixed _).Fits (f.pack rec from_ f.max_data_length)
    rw [Field_blob.pack_spec]
    exact Layout.fits_split_read _ _ (Bytes.load_lt _ _ _)

/-! ## The metadata word of a column -/

/-- The metadata word of a CHAR column: its two saved bytes, the real type first. -/
def Field_string.metadata_word (f : Field_string) : Nat :=
  (((MYSQL_TYPE_STRING ^^^ ((f.field_length &&& 0x300) >>> 4)) % 256) <<< 8) + (f.field_length &&& 0xFF)

/-- The metadata word `table_def` keeps for a column of the field. -/
def Field.metadata : Field → Nat
  | .tiny | .short | .medium | .long | .longlong => 0
  | .new_decimal f => (f.precision <<< 8) + f.dec
  | .timef dec _ | .datetimef dec _ | .timestampf dec _ => dec
  | .bit f => f.field_length % 8 + ((f.field_length / 8) <<< 8)
  | .string f => f.metadata_word
  | .varstring f => f.field_length
  | .blob f => f.packlength

theorem and_300 (x : Nat) : x &&& 0x300 = x / 256 % 4 * 256 := by
  have h := Bytes.and_shiftLeft x 3 8
  rw [show (3 <<< 8 : Nat) = 0x300 from rfl] at h
  rw [h, Nat.shiftLeft_eq, Nat.shiftRight_eq_div_pow, Nat.and_two_pow_sub_one_eq_mod _ 2]

namespace Field_string

/-- The word in numbers: the type byte folds in the hundreds of 256 of `field_length`. -/
theorem metadata_word_eq (f : Field_string) :
    f.metadata_word = (254 ^^^ f.field_length / 256 * 16) % 256 * 256 + f.field_length % 256 := by
  have hlt := f.field_length_lt
  have h300 : (f.field_length &&& 0x300) >>> 4 = f.field_length / 256 * 16 := by
    rw [and_300, Nat.shiftRight_eq_div_pow]
    omega
  rw [metadata_word, h300, and_ff, Nat.shiftLeft_eq]
  rfl

/-- `Field_string::unpack` and `max_display_length_for_field` read the length back. -/
theorem from_length_word (c lo : Nat) (hlo : lo < 256) :
    ((((c * 256 + lo) >>> 4) &&& 0x300) ^^^ 0x300) + ((c * 256 + lo) &&& 0x00ff) =
      (c / 16 % 4 * 256 ^^^ 0x300) + lo := by
  have hhi : (c * 256 + lo) / 2 ^ 4 / 256 % 4 = c / 16 % 4 := by omega
  have hlo' : (c * 256 + lo) % 256 = lo := by omega
  rw [and_300, and_ff, Nat.shiftRight_eq_div_pow, hhi, hlo']

/-- The two high bits of a length below 1024 fold into the type byte and back. -/
theorem type_byte_spec : ∀ h < 4,
    ((254 ^^^ h * 16) % 256 / 16 % 4 * 256 ^^^ 0x300) = h * 256 ∧
      (254 ^^^ h * 16) % 256 ≠ MYSQL_TYPE_ENUM ∧ (254 ^^^ h * 16) % 256 ≠ MYSQL_TYPE_SET ∧
      0 < (254 ^^^ h * 16) % 256 := by
  decide

theorem metadata_word_split (f : Field_string) :
    ∃ h < 4, f.field_length = h * 256 + f.field_length % 256 ∧
      f.metadata_word = (254 ^^^ h * 16) % 256 * 256 + f.field_length % 256 := by
  have hlt := f.field_length_lt
  exact ⟨f.field_length / 256, by omega, by omega, metadata_word_eq f⟩

theorem from_length_metadata_word (f : Field_string) :
    (((f.metadata_word >>> 4) &&& 0x300) ^^^ 0x300) + (f.metadata_word &&& 0x00ff) =
      f.field_length := by
  obtain ⟨h, hh, hfl, hw⟩ := metadata_word_split f
  rw [hw, from_length_word _ _ (Nat.mod_lt _ (by norm_num)), (type_byte_spec h hh).1]
  omega

theorem metadata_word_type (f : Field_string) :
    f.metadata_word >>> 8 ≠ MYSQL_TYPE_ENUM ∧ f.metadata_word >>> 8 ≠ MYSQL_TYPE_SET ∧
      (f.metadata_word >>> 8) % 256 = f.metadata_word >>> 8 := by
  obtain ⟨h, hh, -, hw⟩ := metadata_word_split f
  have hhi : f.metadata_word >>> 8 = (254 ^^^ h * 16) % 256 := by
    rw [hw, Nat.shiftRight_eq_div_pow]
    have := Nat.mod_lt f.field_length (show 256 > 0 by norm_num)
    omega
  obtain ⟨-, henum, hset, -⟩ := type_byte_spec h hh
  refine ⟨hhi ▸ henum, hhi ▸ hset, ?_⟩
  rw [hhi]
  exact Nat.mod_mod _ _

theorem metadata_word_pos (f : Field_string) : 0 < f.metadata_word := by
  obtain ⟨h, hh, -, hw⟩ := metadata_word_split f
  have := (type_byte_spec h hh).2.2.2
  omega

end Field_string

namespace table_def

/-! The constructor's round for each binlog type of the fields. -/

theorem read_field_metadata_int (mem : Memory) (p t : Nat)
    (ht : t = MYSQL_TYPE_TINY ∨ t = MYSQL_TYPE_SHORT ∨ t = MYSQL_TYPE_INT24 ∨ t = MYSQL_TYPE_LONG ∨
      t = MYSQL_TYPE_LONGLONG) :
    read_field_metadata mem p t = (0, 0) := by
  rcases ht with rfl | rfl | rfl | rfl | rfl <;> rfl

theorem read_field_metadata_newdecimal (mem : Memory) (p : Nat) :
    read_field_metadata mem p MYSQL_TYPE_NEWDECIMAL =
      (((mem p).toNat <<< 8) + (mem (p + 1)).toNat, 2) := rfl

theorem read_field_metadata_temporal (mem : Memory) (p t : Nat)
    (ht : t = MYSQL_TYPE_TIME2 ∨ t = MYSQL_TYPE_DATETIME2 ∨ t = MYSQL_TYPE_TIMESTAMP2) :
    read_field_metadata mem p t = ((mem p).toNat, 1) := by
  rcases ht with rfl | rfl | rfl <;> rfl

theorem read_field_metadata_bit (mem : Memory) (p : Nat) :
    read_field_metadata mem p MYSQL_TYPE_BIT = ((mem p).toNat + ((mem (p + 1)).toNat <<< 8), 2) :=
  rfl

theorem read_field_metadata_string (mem : Memory) (p : Nat) :
    read_field_metadata mem p MYSQL_TYPE_STRING =
      (((mem p).toNat <<< 8) + (mem (p + 1)).toNat, 2) := rfl

theorem read_field_metadata_varchar (mem : Memory) (p : Nat) :
    read_field_metadata mem p MYSQL_TYPE_VARCHAR = (load mem p 2, 2) := rfl

theorem read_field_metadata_blob (mem : Memory) (p : Nat) :
    read_field_metadata mem p MYSQL_TYPE_BLOB = ((mem p).toNat, 1) := rfl

end table_def

theorem toNat_ofNat (n : Nat) : (UInt8.ofNat n).toNat = n % 256 := by
  simp

theorem toNat_ofNat_of_lt {n : Nat} (h : n < 256) : (UInt8.ofNat n).toNat = n := by
  rw [toNat_ofNat, Nat.mod_eq_of_lt h]

open table_def in
/-- Where a memory holds what the field saved, the constructor's round for the field's
    binlog type reads the field's metadata word and takes the bytes saved. -/
theorem read_field_metadata_of_holds {mem : Memory} {p : Nat} (f : Field)
    (h : Holds mem p f.do_save_field_metadata) :
    read_field_metadata mem p f.binlog_type = (f.metadata, f.do_save_field_metadata.length) := by
  cases f with
  | tiny | short | medium | long | longlong =>
    exact read_field_metadata_int mem p _ (by simp [Field.binlog_type])
  | new_decimal f =>
    obtain ⟨h0, h1, -⟩ := Bytes.holds_cons.mp h |>.imp_right Bytes.holds_cons.mp
    have hp := f.precision_le
    have hd := f.dec_le
    unfold DECIMAL_MAX_PRECISION at hp
    unfold DECIMAL_MAX_SCALE at hd
    rw [Field.binlog_type, read_field_metadata_newdecimal, h0, h1, toNat_ofNat_of_lt (by omega),
      toNat_ofNat_of_lt (by omega)]
    rfl
  | timef dec hdec | datetimef dec hdec | timestampf dec hdec =>
    have h0 := (Bytes.holds_cons.mp h).1
    unfold MyTime.DATETIME_MAX_DECIMALS at hdec
    rw [read_field_metadata_temporal mem p _ (by simp [Field.binlog_type]), h0,
      toNat_ofNat_of_lt (by omega)]
    rfl
  | bit f =>
    obtain ⟨h0, h1, -⟩ := Bytes.holds_cons.mp h |>.imp_right Bytes.holds_cons.mp
    have hfl := f.field_length_le
    rw [Field.binlog_type, read_field_metadata_bit, h0, h1, toNat_ofNat_of_lt (by omega),
      toNat_ofNat_of_lt (by omega)]
    rfl
  | string f =>
    obtain ⟨h0, h1, -⟩ := Bytes.holds_cons.mp h |>.imp_right Bytes.holds_cons.mp
    have hlo : f.field_length &&& 0xFF < 256 := by
      rw [and_ff]
      exact Nat.mod_lt _ (by norm_num)
    rw [Field.binlog_type, read_field_metadata_string, h0, h1, toNat_ofNat,
      toNat_ofNat_of_lt hlo]
    rfl
  | varstring f =>
    have hfl := f.field_length_le
    rw [Field.binlog_type, read_field_metadata_varchar, Bytes.load_of_holds_split h,
      Nat.mod_eq_of_lt (by norm_num; omega)]
    rfl
  | blob f =>
    have h0 := (Bytes.holds_cons.mp h).1
    have hpl := f.packlength_le
    rw [Field.binlog_type, read_field_metadata_blob, h0, toNat_ofNat_of_lt (by omega)]
    rfl

/-! ## The table map read back -/

namespace Table_map_log_event

@[simp] theorem m_coltype_cons (f : Field) (fields : List Field) :
    m_coltype (f :: fields) = f.binlog_type :: m_coltype fields := rfl

@[simp] theorem save_field_metadata_cons (f : Field) (fields : List Field) :
    save_field_metadata (f :: fields) = f.do_save_field_metadata ++ save_field_metadata fields :=
  List.flatMap_cons

/-- The constructor's loop reads back, one field after the other, the metadata words of the
    fields whose saved metadata the memory holds. The induction is on the fields, with the
    byte index moving on by what each saved. -/
theorem read_metadata_loop_of_holds (mem : Memory) (field_metadata : Nat) :
    ∀ (fields : List Field) (index : Nat),
      Holds mem (field_metadata + index) (save_field_metadata fields) →
      table_def.read_metadata_loop mem field_metadata (m_coltype fields) index =
        fields.map Field.metadata
  | [], _, _ => rfl
  | f :: fields, index, h => by
    rw [save_field_metadata_cons, Bytes.holds_append] at h
    have ih := read_metadata_loop_of_holds mem field_metadata fields
      (index + f.do_save_field_metadata.length) (by rw [← Nat.add_assoc]; exact h.2)
    rw [m_coltype_cons, table_def.read_metadata_loop, read_field_metadata_of_holds f h.1, ih]
    rfl

/-- A field that saves no metadata has the word 0. -/
theorem metadata_eq_zero {f : Field} (h : f.do_save_field_metadata = []) : f.metadata = 0 := by
  cases f <;> simp_all [Field.do_save_field_metadata, Field.metadata,
    Field_new_decimal.do_save_field_metadata, Field_bit.do_save_field_metadata,
    Field_string.do_save_field_metadata, Field_varstring.do_save_field_metadata,
    Field_blob.do_save_field_metadata, Bytes.split]

theorem metadata_eq_zero_of_mem {fields : List Field} (h : save_field_metadata fields = [])
    {f : Field} (hf : f ∈ fields) : f.metadata = 0 :=
  metadata_eq_zero (List.flatMap_eq_nil_iff.mp h f hf)

end Table_map_log_event

open Table_map_log_event

/-- The slave's `table_def` has the metadata words of the master's fields. -/
theorem table_map_def_m_field_metadata (fields : List Field) (null_bits : List Nat)
    (mem : Memory) (field_metadata : Nat) (h : Holds mem field_metadata (save_field_metadata fields)) :
    (table_map_def fields null_bits mem field_metadata).m_field_metadata =
      fields.map Field.metadata := by
  unfold table_map_def table_def.table_def
  dsimp only
  split_ifs with hsome
  · exact read_metadata_loop_of_holds mem field_metadata fields 0 h
  · -- no metadata at all: every field saved none, and its word is 0
    have hnil : save_field_metadata fields = [] := by
      rcases fields with _ | ⟨f, fields⟩
      · rfl
      · simpa using hsome
    rw [List.map_congr_left (fun f hf => metadata_eq_zero_of_mem hnil hf), List.map_const']

/-- What the slave's `table_def` knows of column `i`: the field's binlog type and its
    metadata word, also as `field_metadata(i)` hands it to `unpack`. -/
structure Describes (td : table_def) (i : Nat) (f : Field) : Prop where
  binlog_type_eq : td.binlog_type i = f.binlog_type
  metadata_eq : td.m_field_metadata.getD i 0 = f.metadata
  field_metadata_eq : td.field_metadata i = f.metadata

/-- The `table_def` built from a table map describes each column of the table. -/
theorem table_map_def_describes (fields : List Field) (null_bits : List Nat) (mem : Memory)
    (field_metadata : Nat) (h : Holds mem field_metadata (save_field_metadata fields)) (i : Nat)
    (hi : i < fields.length) :
    Describes (table_map_def fields null_bits mem field_metadata) i fields[i] := by
  have hmeta := table_map_def_m_field_metadata fields null_bits mem field_metadata h
  have hword : (table_map_def fields null_bits mem field_metadata).m_field_metadata.getD i 0 =
      fields[i].metadata := by
    rw [hmeta, List.getD_eq_getElem _ _ (by simpa using hi), List.getElem_map]
  refine ⟨?_, hword, ?_⟩
  · simp [table_def.binlog_type, table_map_def, table_def.table_def, m_coltype,
      List.getElem?_eq_getElem hi]
  · unfold table_def.field_metadata
    split_ifs with hsize
    · exact hword
    · -- no field saved metadata: the word of column `i` is 0 too
      have hnil : save_field_metadata fields = [] := by
        simpa [table_map_def, table_def.table_def] using hsize
      exact (metadata_eq_zero_of_mem hnil (List.getElem_mem hi)).symm

/-! ## `calc_field_size` and `unpack` on a described column -/

/-- A described column has the field's type: a CHAR's metadata never names ENUM or SET. -/
theorem Describes.type_eq {td : table_def} {i : Nat} {f : Field} (hD : Describes td i f) :
    td.type i = f.binlog_type := by
  unfold table_def.type
  rw [hD.binlog_type_eq, hD.metadata_eq]
  cases f
  case string f =>
    obtain ⟨henum, hset, -⟩ := Field_string.metadata_word_type f
    simp [Field.binlog_type, Field.metadata, henum, hset]
  all_goals rfl

theorem length_prefix_eq_load (mem : Memory) (p w : Nat) (hw : w = 1 ∨ w = 2) :
    length_prefix mem p w = load mem p w := by
  rcases hw with rfl | rfl
  · rw [ length_prefix, if_pos rfl, Bytes.load_one]
  · rfl

theorem length_prefix_width (mem : Memory) (p : Nat) (c : Prop) [Decidable c] :
    length_prefix mem p (if c then 2 else 1) = load mem p (if c then 2 else 1) :=
  length_prefix_eq_load mem p _ (by split_ifs <;> simp)

/-- The display length of a CHAR column is its `field_length`, read back from the word. -/
theorem max_display_length_metadata_word (f : Field_string) :
    max_display_length_for_field MYSQL_TYPE_STRING f.metadata_word = f.field_length := by
  obtain ⟨henum, hset, hmod⟩ := Field_string.metadata_word_type f
  unfold max_display_length_for_field
  simp only [MYSQL_TYPE_STRING, MYSQL_TYPE_NEWDECIMAL, MYSQL_TYPE_FLOAT, MYSQL_TYPE_DOUBLE,
    MYSQL_TYPE_SET, MYSQL_TYPE_ENUM] at henum hset ⊢
  simp [hmod, henum, hset, Field_string.from_length_metadata_word]

theorem calc_field_size_of_describes {td : table_def} {i : Nat} {f : Field}
    (hD : Describes td i f) (mem : Memory) (p : Nat) :
    calc_field_size td i mem p = f.layout.size mem p % 2 ^ 32 := by
  unfold calc_field_size
  rw [hD.type_eq, hD.metadata_eq]
  cases f
  -- take the branch of the field's type
  all_goals simp [Field.binlog_type, Field.metadata, Field.layout, Layout.size, MYSQL_TYPE_DECIMAL,
    MYSQL_TYPE_TINY, MYSQL_TYPE_SHORT, MYSQL_TYPE_LONG, MYSQL_TYPE_FLOAT, MYSQL_TYPE_DOUBLE,
    MYSQL_TYPE_NULL, MYSQL_TYPE_TIMESTAMP, MYSQL_TYPE_LONGLONG, MYSQL_TYPE_INT24, MYSQL_TYPE_DATE,
    MYSQL_TYPE_TIME, MYSQL_TYPE_DATETIME, MYSQL_TYPE_YEAR, MYSQL_TYPE_NEWDATE, MYSQL_TYPE_VARCHAR,
    MYSQL_TYPE_BIT, MYSQL_TYPE_TIMESTAMP2, MYSQL_TYPE_DATETIME2, MYSQL_TYPE_TIME2,
    MYSQL_TYPE_NEWDECIMAL, MYSQL_TYPE_ENUM, MYSQL_TYPE_SET, MYSQL_TYPE_TINY_BLOB,
    MYSQL_TYPE_MEDIUM_BLOB, MYSQL_TYPE_LONG_BLOB, MYSQL_TYPE_BLOB, MYSQL_TYPE_STRING,
    MYSQL_TYPE_GEOMETRY]
  case new_decimal f =>
    have hd := f.dec_le
    unfold DECIMAL_MAX_SCALE at hd
    have hhi : ((f.precision <<< 8) + f.dec) >>> 8 = f.precision := by
      rw [Nat.shiftLeft_eq, Nat.shiftRight_eq_div_pow]
      omega
    have hlo : ((f.precision <<< 8) + f.dec) &&& 255 = f.dec := by
      rw [show (255 : Nat) = 0xFF from rfl, and_ff, Nat.shiftLeft_eq]
      omega
    rw [hhi, hlo]
    rfl
  case timef dec hdec | datetimef dec hdec | timestampf dec hdec =>
    unfold MyTime.DATETIME_MAX_DECIMALS at hdec
    simp only [MyTime.my_time_binary_length, MyTime.my_datetime_binary_length,
      MyTime.my_timestamp_binary_length]
    omega
  case bit f =>
    have hfl := f.field_length_le
    have hword : f.field_length % 8 + (f.field_length / 8) <<< 8 = f.field_length % 8 + f.field_length / 8 * 256 :=
      by rw [Nat.shiftLeft_eq]
    rw [hword, Nat.shiftRight_eq_div_pow, show (255 : Nat) = 0xFF from rfl, and_ff, and_ff]
    split_ifs <;> omega
  case string f =>
    obtain ⟨henum, hset, hmod⟩ := Field_string.metadata_word_type f
    have hmax := max_display_length_metadata_word f
    simp only [MYSQL_TYPE_SET, MYSQL_TYPE_ENUM, MYSQL_TYPE_STRING] at henum hset hmax
    rw [if_neg (by rw [hmod]; omega), hmax, length_prefix_width]
  case varstring f =>
    rw [length_prefix_width]
  case blob f =>
    have hpl : 1 ≤ f.packlength ∧ f.packlength ≤ 4 := ⟨f.packlength_pos, f.packlength_le⟩
    simp [hpl, Nat.add_comm]

/-- On a described column, `unpack` moves past the whole value the layout says lies there. -/
theorem unpack_of_describes {td : table_def} {i : Nat} {f : Field} (hD : Describes td i f)
    (mem : Memory) (p : Nat) :
    f.unpack mem p (td.field_metadata i) = p + f.layout.size mem p := by
  rw [hD.field_metadata_eq]
  cases f with
  | tiny | short | medium | long | longlong => rfl
  | new_decimal f =>
    have hp := f.precision_le
    have hd := f.dec_le
    unfold DECIMAL_MAX_PRECISION at hp
    unfold DECIMAL_MAX_SCALE at hd
    have hmd : (Field.new_decimal f).metadata = f.precision * 256 + f.dec := by
      rw [Field.metadata, Nat.shiftLeft_eq]
    rw [hmd]
    simp only [Field.unpack, Field_new_decimal.unpack, Field.layout, Layout.size]
    by_cases h0 : f.precision * 256 + f.dec = 0
    · rw [if_pos h0, h0]
      simp [Field.unpack_default]
    · -- the master's precision and scale are the field's own, so is its size
      have hprec : ((f.precision * 256 + f.dec) &&& 0xff00) >>> 8 = f.precision := by
        rw [Nat.shiftRight_and_distrib, show (0xff00 >>> 8 : Nat) = 0xFF from rfl, and_ff,
          Nat.shiftRight_eq_div_pow]
        omega
      have hdec : (f.precision * 256 + f.dec) &&& 0x00ff = f.dec := by
        rw [and_ff]
        omega
      rw [if_neg h0, hprec, hdec, if_neg (fun h => Nat.lt_irrefl f.bin_size h.2)]
  | timef dec hdec | datetimef dec hdec | timestampf dec hdec =>
    unfold MyTime.DATETIME_MAX_DECIMALS at hdec
    simp [Field.unpack, Field.unpack_default, Field.metadata, Field.layout, Layout.size,
      MYSQL_TYPE_TIME2, MYSQL_TYPE_DATETIME2, MYSQL_TYPE_TIMESTAMP2, show ¬ dec > 255 by omega]
  | bit f =>
    have hfl := f.field_length_le
    have hword : f.field_length % 8 + (f.field_length / 8) <<< 8 =
        f.field_length % 8 + f.field_length / 8 * 256 := by
      rw [Nat.shiftLeft_eq]
    simp only [Field.unpack, Field_bit.unpack, Field.metadata, Field.layout, Layout.size, hword,
      Nat.shiftRight_eq_div_pow, and_ff]
    have hlen : (f.field_length % 8 + f.field_length / 8 * 256) / 2 ^ 8 % 256 = f.field_length / 8 := by
      omega
    have hbits : (f.field_length % 8 + f.field_length / 8 * 256) % 256 = f.field_length % 8 := by
      omega
    rw [hlen, hbits]
    -- `Field_bit` reads its own size; `Field_bit_as_char` the master's, which is the same
    rcases f.layout with ⟨hb, hy⟩ | ⟨hb, hy⟩
    · rw [hb, hy, and_seven]
      split_ifs <;> omega
    · rw [hb, hy]
      split_ifs <;> omega
  | string f =>
    have hword := Field_string.from_length_metadata_word f
    simp only [Field.unpack, Field_string.unpack, Field.metadata, Field.layout, Layout.size,
      if_pos (Nat.pos_iff_ne_zero.mp (Field_string.metadata_word_pos f)), hword]
    split_ifs <;> simp [Bytes.load_one, Nat.add_assoc]
  | varstring f =>
    simp only [Field.unpack, Field_varstring.unpack, Field.metadata, Field.layout, Layout.size,
      f.length_bytes_eq, lt_irrefl, and_false, if_false]
    split_ifs <;> first | omega | simp [Bytes.load_one, Nat.add_assoc]
  | blob f =>
    have hpl := f.packlength_le
    have hmask : f.packlength &&& 0xFF = f.packlength := by
      rw [and_ff]
      omega
    simp only [Field.unpack, Field_blob.unpack, Field.metadata, Field.layout, Layout.size,
      if_pos (show f.packlength > 0 from f.packlength_pos), hmask, Field_blob.get_length_eq,
      Nat.add_assoc]

/-! ## `pack`, `calc_field_size` and `unpack` agree -/

section
variable {td : table_def} {i : Nat} {f : Field}

/-- `unpack` takes exactly the bytes `pack` wrote. -/
theorem unpack_of_pack (hD : Describes td i f) (rec : Memory) (from_ : Nat) {mem : Memory}
    {p : Nat} (h : Holds mem p (f.pack rec from_ f.max_data_length)) :
    f.unpack mem p (td.field_metadata i) = p + (f.pack rec from_ f.max_data_length).length := by
  rw [unpack_of_describes hD, Layout.size_of_fits (Field.pack_fits f rec from_) h]

/-- `calc_field_size` counts the bytes `pack` wrote, in a `uint32`. -/
theorem calc_field_size_of_pack (hD : Describes td i f) (rec : Memory) (from_ : Nat)
    {mem : Memory} {p : Nat} (h : Holds mem p (f.pack rec from_ f.max_data_length)) :
    calc_field_size td i mem p = (f.pack rec from_ f.max_data_length).length % 2 ^ 32 := by
  rw [calc_field_size_of_describes hD, Layout.size_of_fits (Field.pack_fits f rec from_) h]

end

/-- What `pack` writes stays below `2^32` bytes, unless the field is a LONGBLOB. -/
theorem pack_length_lt (f : Field) (hf : ∀ fb : Field_blob, f = .blob fb → fb.packlength < 4)
    (rec : Memory) (from_ : Nat) : (f.pack rec from_ f.max_data_length).length < 2 ^ 32 := by
  have hfit := Field.pack_fits f rec from_
  cases f with
  | tiny | short | medium | long | longlong => rw [hfit]; norm_num
  | new_decimal f =>
    have hp := f.precision_le
    have hd := f.dec_le
    have hsize := decimal_bin_size_le f.precision f.dec
    unfold DECIMAL_MAX_PRECISION at hp
    unfold DECIMAL_MAX_SCALE at hd
    rw [hfit]
    exact lt_of_le_of_lt hsize (by omega)
  | timef dec hdec | datetimef dec hdec | timestampf dec hdec =>
    unfold MyTime.DATETIME_MAX_DECIMALS at hdec
    rw [hfit]
    simp only [MyTime.my_time_binary_length, MyTime.my_datetime_binary_length,
      MyTime.my_timestamp_binary_length]
    omega
  | bit f =>
    have hfl := f.field_length_le
    rw [hfit]
    omega
  | string f | varstring f =>
    -- a length of one or two bytes and that many bytes
    obtain ⟨data, heq, hlt⟩ := hfit
    rw [heq, List.length_append, Bytes.length_split]
    split_ifs at hlt ⊢ <;> norm_num at hlt ⊢ <;> omega
  | blob f =>
    -- a length of at most three bytes and that many bytes
    obtain ⟨data, heq, hlt⟩ := hfit
    have h3 : f.packlength ≤ 3 := Nat.le_of_lt_succ (hf f rfl)
    have hpow : 256 ^ f.packlength ≤ 256 ^ 3 := Nat.pow_le_pow_right (by norm_num) h3
    rw [heq, List.length_append, Bytes.length_split]
    norm_num at hpow
    omega

open Table_map_log_event in
/-- **The slave reads back what the master packed.** For every column of a table whose table
    map the slave's memory holds, every record and every row memory holding the bytes `pack`
    wrote for the column: `unpack` with the column's metadata takes exactly those bytes, and,
    unless the column is a LONGBLOB, `calc_field_size` counts them. -/
theorem table_map_pack_agrees (fields : List Field) (null_bits : List Nat) (mem_meta : Memory)
    (field_metadata : Nat) (hmeta : Holds mem_meta field_metadata (save_field_metadata fields))
    (i : Nat) (hi : i < fields.length) (rec : Memory) (from_ : Nat) {mem : Memory} {p : Nat}
    (h : Holds mem p (fields[i].pack rec from_ fields[i].max_data_length)) :
    let td := table_map_def fields null_bits mem_meta field_metadata
    fields[i].unpack mem p (td.field_metadata i) =
        p + (fields[i].pack rec from_ fields[i].max_data_length).length ∧
      ((∀ fb : Field_blob, fields[i] = .blob fb → fb.packlength < 4) →
        calc_field_size td i mem p = (fields[i].pack rec from_ fields[i].max_data_length).length) := by
  intro td
  have hD := table_map_def_describes fields null_bits mem_meta field_metadata hmeta i hi
  refine ⟨unpack_of_pack hD rec from_ h, fun hf => ?_⟩
  rw [calc_field_size_of_pack hD rec from_ h, Nat.mod_eq_of_lt (pack_length_lt _ hf rec from_)]

/-- The table map of one LONG column, as the slave holds it. -/
def long_table_map : Memory :=
  fun a => (Table_map_log_event.save_field_metadata [.long]).getD a 0

/-- The row holding what `pack` wrote for a LONG of a record of sevens. -/
def long_row : Memory := fun a => (Field.long.pack (fun _ => 7) 0 Field.long.max_data_length).getD a 0

/-- A LONG column: `unpack` and `calc_field_size` take the four bytes `pack` wrote. -/
theorem table_map_pack_agrees_long :
    Field.long.unpack long_row 0 ((table_map_def [.long] [0] long_table_map 0).field_metadata 0) =
        0 + (Field.long.pack (fun _ => 7) 0 Field.long.max_data_length).length ∧
      ((∀ fb : Field_blob, Field.long = .blob fb → fb.packlength < 4) →
        calc_field_size (table_map_def [.long] [0] long_table_map 0) 0 long_row 0 =
          (Field.long.pack (fun _ => 7) 0 Field.long.max_data_length).length) :=
  table_map_pack_agrees [.long] [0] long_table_map 0 (Bytes.holds_getD _) 0 (by simp)
    (fun _ => 7) 0 (Bytes.holds_getD _)

/-! ## A LONGBLOB value of `2^32 - 1` bytes -/

/-- LONGBLOB and LONGTEXT: the length of a value takes four bytes. -/
def longblob : Field_blob := ⟨4, by decide, by decide⟩

open Table_map_log_event in
/-- **`calc_field_size` wraps on a long LONGBLOB.** A LONGBLOB value of `2^32 - 1` bytes, the
    most its four length bytes hold: `pack` writes the length and all its bytes, `2^32 + 3` in
    all, and `unpack` takes them all, but `calc_field_size` adds the length and the
    `packlength` in a `uint32` and gives 3. -/
theorem calc_field_size_wraps_longblob (null_bits : List Nat) (mem_meta : Memory)
    (field_metadata : Nat)
    (hmeta : Holds mem_meta field_metadata (save_field_metadata [.blob longblob]))
    (rec : Memory) (from_ : Nat) (hlength : load rec from_ 4 = 2 ^ 32 - 1) (mem : Memory) (p : Nat)
    (h : Holds mem p ((Field.blob longblob).pack rec from_ (Field.blob longblob).max_data_length)) :
    let td := table_map_def [.blob longblob] null_bits mem_meta field_metadata
    ((Field.blob longblob).pack rec from_ (Field.blob longblob).max_data_length).length = 2 ^ 32 + 3 ∧
      calc_field_size td 0 mem p = 3 ∧
      (Field.blob longblob).unpack mem p (td.field_metadata 0) = p + (2 ^ 32 + 3) := by
  intro td
  have hD : Describes td 0 (.blob longblob) :=
    table_map_def_describes [.blob longblob] null_bits mem_meta field_metadata hmeta 0 (by simp)
  -- the four length bytes, then all `2^32 - 1` bytes of the value
  have hlen : ((Field.blob longblob).pack rec from_ (Field.blob longblob).max_data_length).length =
      2 ^ 32 + 3 := by
    change (longblob.pack rec from_ longblob.max_data_length).length = _
    rw [Field_blob.pack_spec, List.length_append, Bytes.length_split, Bytes.length_read]
    change 4 + load rec from_ 4 = _
    rw [hlength]
    norm_num
  refine ⟨hlen, ?_, ?_⟩
  · -- the `uint32` sum `2^32 + 3` wraps to 3
    rw [calc_field_size_of_pack hD rec from_ h, hlen]
    norm_num
  · rw [unpack_of_pack hD rec from_ h, hlen]

/-- The table map of one LONGBLOB column, as the slave holds it. -/
def longblob_table_map : Memory :=
  fun a => (Table_map_log_event.save_field_metadata [.blob longblob]).getD a 0

/-- A record whose LONGBLOB value is as long as four length bytes allow. -/
def longest_longblob_record : Memory := fun a => if a < 4 then 0xFF else 0

/-- The row holding what `pack` wrote for that record. -/
def longest_longblob_row : Memory :=
  fun a => ((Field.blob longblob).pack longest_longblob_record 0
    (Field.blob longblob).max_data_length).getD a 0

theorem calc_field_size_wraps_longblob_longest :
    let td := table_map_def [.blob longblob] [0] longblob_table_map 0
    ((Field.blob longblob).pack longest_longblob_record 0
        (Field.blob longblob).max_data_length).length = 2 ^ 32 + 3 ∧
      calc_field_size td 0 longest_longblob_row 0 = 3 ∧
      (Field.blob longblob).unpack longest_longblob_row 0 (td.field_metadata 0) = 0 + (2 ^ 32 + 3) :=
  calc_field_size_wraps_longblob [0] longblob_table_map 0 (Bytes.holds_getD _)
    longest_longblob_record 0 (by decide) longest_longblob_row 0 (Bytes.holds_getD _)

end Rpl
end AliSql
