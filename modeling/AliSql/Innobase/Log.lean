import Mathlib

/-!
# Redo log positions (`storage/innobase/log/log0log.cc`)

A log group is `n_files` files of `file_size` bytes, each starting with a header of
`LOG_FILE_HDR_SIZE` bytes. The log is written round the group: a *size offset* counts the
bytes of log data without the headers, modulo the group's capacity, and a *real offset* is
the byte in the concatenated files, headers counted. `log_group_calc_real_offset` and
`log_group_calc_size_offset` convert between the two, `log_group_calc_lsn_offset` finds the
real offset of an lsn from the one the group is anchored at (`group->lsn`,
`group->lsn_offset`), `log_group_set_fields` moves the anchor, and `log_calc_where_lsn_is`
computes the same position again in `ib_int64_t`, as a file number and an offset in it.

The numbers are the source's: `lsn_t` and `ulint` are `UInt64`, `ib_int64_t` is `Int64`,
and each conversion of the usual arithmetic conversions is written out. The capacity
`(file_size - LOG_FILE_HDR_SIZE) * n_files` is an `lsn_t` and would wrap for a group of
`2^64` bytes or more; the server starts only with less than 512 GB of log files. Below `2^63`
bytes the conversions invert each other, each function is its exact
formula (`log_group_calc_real_offset_toNat`, `log_group_calc_size_offset_toNat`), and
`log_group_calc_lsn_offset` moves around the group by the lsn difference
(`log_group_calc_lsn_offset_spec`). Every `log_group_set_fields` keeps the anchor at the
position of its lsn counted from the first file's start lsn (`Anchored`), and at such an
anchor the two computations name the same byte (`log_group_offsets`, and
`log_group_offsets_below_512_gb` at the bound of the startup check).
-/

namespace AliSql

def OS_FILE_LOG_BLOCK_SIZE : Nat := 512
def LOG_FILE_HDR_SIZE : Nat := 4 * OS_FILE_LOG_BLOCK_SIZE

/-- The fields of `log_group_t` the offset arithmetic reads. -/
structure log_group_t where
  /-- number of files in the group (`ulint`) -/
  n_files : UInt64
  /-- individual log file size in bytes, including the log file header -/
  file_size : UInt64
  /-- lsn used to fix coordinates within the log group -/
  lsn : UInt64
  /-- the offset of the above lsn -/
  lsn_offset : UInt64
  deriving DecidableEq, Repr

/-- `log_group_get_capacity`: the bytes of log data, headers excluded. -/
def log_group_get_capacity (group : log_group_t) : UInt64 :=
  (group.file_size - LOG_FILE_HDR_SIZE.toUInt64) * group.n_files

/-- `log_group_calc_size_offset`: the offset with the headers taken out. -/
def log_group_calc_size_offset (offset : UInt64) (group : log_group_t) : UInt64 :=
  offset - LOG_FILE_HDR_SIZE.toUInt64 * (1 + offset / group.file_size)

/-- `log_group_calc_real_offset`: the offset with the headers put in. -/
def log_group_calc_real_offset (offset : UInt64) (group : log_group_t) : UInt64 :=
  offset + LOG_FILE_HDR_SIZE.toUInt64 * (1 + offset / (group.file_size - LOG_FILE_HDR_SIZE.toUInt64))

/-- `log_group_calc_lsn_offset`: the real offset of `lsn`, from the group's anchor. -/
def log_group_calc_lsn_offset (lsn : UInt64) (group : log_group_t) : UInt64 :=
  let gr_lsn := group.lsn
  let gr_lsn_size_offset := log_group_calc_size_offset group.lsn_offset group
  let group_size := log_group_get_capacity group
  let difference :=
    if lsn ≥ gr_lsn then lsn - gr_lsn
    else group_size - (gr_lsn - lsn) % group_size
  let offset := (gr_lsn_size_offset + difference) % group_size
  log_group_calc_real_offset offset group

/-- `log_group_set_fields`: the group anchored at `lsn`. -/
def log_group_set_fields (group : log_group_t) (lsn : UInt64) : log_group_t :=
  { group with lsn_offset := log_group_calc_lsn_offset lsn group, lsn := lsn }

/-- `log_calc_where_lsn_is`: the file number and `*log_file_offset`, or `none` where
`ut_a(lsn >= first_header_lsn)` fails. The `lsn_t` operands are compared and divided as
unsigned, and the `ib_int64_t` products wrap. -/
def log_calc_where_lsn_is (first_header_lsn lsn : UInt64) (n_log_files : UInt64)
    (log_file_size : Int64) : Option (UInt64 × Int64) :=
  let capacity : Int64 := log_file_size - LOG_FILE_HDR_SIZE.toInt64
  let lsn :=
    if lsn < first_header_lsn then
      let add_this_many : Int64 :=
        (1 + (first_header_lsn - lsn) / (capacity * n_log_files.toInt64).toUInt64).toInt64
      lsn + (add_this_many * capacity * n_log_files.toInt64).toUInt64
    else lsn
  if lsn ≥ first_header_lsn then
    let file_no := ((lsn - first_header_lsn) / capacity.toUInt64) % n_log_files
    let log_file_offset : Int64 := ((lsn - first_header_lsn) % capacity.toUInt64).toInt64
    some (file_no, log_file_offset + LOG_FILE_HDR_SIZE.toInt64)
  else none

/-! ## The layout

`n` files of `C + H` bytes, each behind a header of `H`: the data byte `s` is in file
`s / C`, at `H + s % C` in it. -/

section Layout

variable {H C : Nat}

theorem real_formula (s : Nat) :
    s + H * (1 + s / C) = s / C * (C + H) + (H + s % C) := by
  have := Nat.div_add_mod s C
  nlinarith [this]

theorem real_formula_div (s : Nat) (hC : 0 < C) :
    (s / C * (C + H) + (H + s % C)) / (C + H) = s / C := by
  have hm := Nat.mod_lt s hC
  rw [Nat.mul_comm (s / C), Nat.mul_add_div (by omega),
    Nat.div_eq_of_lt (show H + s % C < C + H by omega), Nat.add_zero]

theorem real_formula_mod (s : Nat) (hC : 0 < C) :
    (s / C * (C + H) + (H + s % C)) % (C + H) = H + s % C := by
  have hm := Nat.mod_lt s hC
  rw [Nat.mul_comm (s / C), Nat.mul_add_mod, Nat.mod_eq_of_lt (show H + s % C < C + H by omega)]

/-- The real position of a data byte is past the header of its file, and within `n` files. -/
theorem real_formula_lt {n s : Nat} (hC : 0 < C) (hs : s < C * n) :
    s / C * (C + H) + (H + s % C) < (C + H) * n := by
  have hq : s / C < n := Nat.div_lt_of_lt_mul hs
  have hm := Nat.mod_lt s hC
  calc s / C * (C + H) + (H + s % C) < s / C * (C + H) + (C + H) := by omega
    _ = (s / C + 1) * (C + H) := by ring
    _ ≤ n * (C + H) := Nat.mul_le_mul_right _ hq
    _ = (C + H) * n := Nat.mul_comm _ _

end Layout

/-! ## The offsets, on the numbers the `UInt64`s hold -/

/-- What the theorems take of a group: a file holds more than its header, there is a file,
and the group's bytes fit in 63 bits. -/
structure log_group_t.fits (group : log_group_t) : Prop where
  hdr_lt : LOG_FILE_HDR_SIZE < group.file_size.toNat
  one_le : 1 ≤ group.n_files.toNat
  size_le : group.file_size.toNat * group.n_files.toNat ≤ 2 ^ 63

/-- A real offset of the group: within its files and past the header of its file. -/
def log_group_t.real_position (group : log_group_t) (r : Nat) : Prop :=
  r < group.file_size.toNat * group.n_files.toNat ∧
    LOG_FILE_HDR_SIZE ≤ r % group.file_size.toNat

theorem LOG_FILE_HDR_SIZE_toNat : LOG_FILE_HDR_SIZE.toUInt64.toNat = LOG_FILE_HDR_SIZE := rfl

section Offsets

variable {group : log_group_t}

theorem log_group_t.fits.data_toNat (hg : group.fits) :
    (group.file_size - LOG_FILE_HDR_SIZE.toUInt64).toNat =
      group.file_size.toNat - LOG_FILE_HDR_SIZE := by
  rw [UInt64.toNat_sub_of_le _ _ (UInt64.le_iff_toNat_le.2 (by
    rw [LOG_FILE_HDR_SIZE_toNat]; exact hg.hdr_lt.le)), LOG_FILE_HDR_SIZE_toNat]

/-- The data of the whole group, the file size less the header times the files. -/
theorem log_group_get_capacity_toNat (hg : group.fits) :
    (log_group_get_capacity group).toNat =
      (group.file_size.toNat - LOG_FILE_HDR_SIZE) * group.n_files.toNat := by
  have hle : (group.file_size.toNat - LOG_FILE_HDR_SIZE) * group.n_files.toNat ≤
      group.file_size.toNat * group.n_files.toNat := Nat.mul_le_mul_right _ (Nat.sub_le _ _)
  rw [log_group_get_capacity, UInt64.toNat_mul, hg.data_toNat,
    Nat.mod_eq_of_lt (by have := hg.size_le; omega)]

/-- A group of at most `2^63` bytes has at most `2^63` files. -/
theorem log_group_t.fits.n_files_le (hg : group.fits) : group.n_files.toNat ≤ 2 ^ 63 :=
  (Nat.le_mul_of_pos_left _ (by have := hg.hdr_lt; omega)).trans hg.size_le

/-- `log_group_calc_real_offset` below the capacity: file `s / C`, at `H + s % C` in it. -/
theorem log_group_calc_real_offset_toNat (hg : group.fits) {s : UInt64}
    (hs : s.toNat < (group.file_size.toNat - LOG_FILE_HDR_SIZE) * group.n_files.toNat) :
    (log_group_calc_real_offset s group).toNat =
      s.toNat / (group.file_size.toNat - LOG_FILE_HDR_SIZE) * group.file_size.toNat +
        (LOG_FILE_HDR_SIZE + s.toNat % (group.file_size.toNat - LOG_FILE_HDR_SIZE)) := by
  have hH := hg.hdr_lt
  have hC : 0 < group.file_size.toNat - LOG_FILE_HDR_SIZE := by omega
  have hF : group.file_size.toNat - LOG_FILE_HDR_SIZE + LOG_FILE_HDR_SIZE =
      group.file_size.toNat := by omega
  -- the exact sum is a real position, so below `2^63`: no step wraps
  have hlt := real_formula_lt (H := LOG_FILE_HDR_SIZE) hC hs
  rw [hF] at hlt
  have hsum := real_formula (H := LOG_FILE_HDR_SIZE)
    (C := group.file_size.toNat - LOG_FILE_HDR_SIZE) s.toNat
  rw [hF] at hsum
  have hbound := hg.size_le
  have hq : s.toNat / (group.file_size.toNat - LOG_FILE_HDR_SIZE) < group.n_files.toNat :=
    Nat.div_lt_of_lt_mul hs
  have hn := hg.n_files_le
  have hmul : LOG_FILE_HDR_SIZE * (1 + s.toNat / (group.file_size.toNat - LOG_FILE_HDR_SIZE)) <
      2 ^ 64 := by omega
  rw [log_group_calc_real_offset, UInt64.toNat_add, UInt64.toNat_mul, UInt64.toNat_add,
    UInt64.toNat_div, hg.data_toNat, LOG_FILE_HDR_SIZE_toNat, UInt64.toNat_one,
    Nat.mod_eq_of_lt (a := 1 + _) (by omega), Nat.mod_eq_of_lt hmul, hsum,
    Nat.mod_eq_of_lt (by omega)]

/-- `log_group_calc_size_offset` at a real position: the data before its file, and its
offset past the header. -/
theorem log_group_calc_size_offset_toNat (hg : group.fits) {r : UInt64}
    (hr : group.real_position r.toNat) :
    (log_group_calc_size_offset r group).toNat =
      r.toNat / group.file_size.toNat * (group.file_size.toNat - LOG_FILE_HDR_SIZE) +
        (r.toNat % group.file_size.toNat - LOG_FILE_HDR_SIZE) := by
  obtain ⟨hlt, hmod⟩ := hr
  have hH := hg.hdr_lt
  have hn := hg.n_files_le
  have hr64 := r.toNat_lt
  have hq : r.toNat / group.file_size.toNat < group.n_files.toNat :=
    Nat.div_lt_of_lt_mul hlt
  -- `r` is its files before it and its offset in its own
  have hdm := Nat.div_add_mod r.toNat group.file_size.toNat
  have hsplit : r.toNat / group.file_size.toNat * (group.file_size.toNat - LOG_FILE_HDR_SIZE) +
      r.toNat / group.file_size.toNat * LOG_FILE_HDR_SIZE =
        r.toNat / group.file_size.toNat * group.file_size.toNat := by
    rw [← Nat.mul_add, Nat.sub_add_cancel hH.le]
  have hcomm := Nat.mul_comm group.file_size.toNat (r.toNat / group.file_size.toNat)
  have hhdr : LOG_FILE_HDR_SIZE * (1 + r.toNat / group.file_size.toNat) =
      LOG_FILE_HDR_SIZE + r.toNat / group.file_size.toNat * LOG_FILE_HDR_SIZE := by ring
  have hmul : LOG_FILE_HDR_SIZE * (1 + r.toNat / group.file_size.toNat) < 2 ^ 64 := by omega
  have hle : LOG_FILE_HDR_SIZE.toUInt64 * (1 + r / group.file_size) ≤ r := by
    rw [UInt64.le_iff_toNat_le, UInt64.toNat_mul, UInt64.toNat_add, UInt64.toNat_div,
      LOG_FILE_HDR_SIZE_toNat, UInt64.toNat_one,
      Nat.mod_eq_of_lt (a := 1 + r.toNat / group.file_size.toNat) (by omega),
      Nat.mod_eq_of_lt hmul]
    omega
  rw [log_group_calc_size_offset, UInt64.toNat_sub_of_le _ _ hle, UInt64.toNat_mul,
    UInt64.toNat_add, UInt64.toNat_div, LOG_FILE_HDR_SIZE_toNat, UInt64.toNat_one,
    Nat.mod_eq_of_lt (a := 1 + r.toNat / group.file_size.toNat) (by omega),
    Nat.mod_eq_of_lt hmul]
  omega

/-- **Real and size offsets invert each other** below the capacity: the real offset of a
data byte is a real position, and its size offset is that byte again. -/
theorem log_group_calc_real_offset_spec (hg : group.fits) {s : UInt64}
    (hs : s.toNat < (group.file_size.toNat - LOG_FILE_HDR_SIZE) * group.n_files.toNat) :
    group.real_position (log_group_calc_real_offset s group).toNat ∧
      log_group_calc_size_offset (log_group_calc_real_offset s group) group = s := by
  have hH := hg.hdr_lt
  have hC : 0 < group.file_size.toNat - LOG_FILE_HDR_SIZE := by omega
  have hF : group.file_size.toNat - LOG_FILE_HDR_SIZE + LOG_FILE_HDR_SIZE =
      group.file_size.toNat := by omega
  have hdiv := real_formula_div (H := LOG_FILE_HDR_SIZE) s.toNat hC
  have hmod := real_formula_mod (H := LOG_FILE_HDR_SIZE) s.toNat hC
  have hlt := real_formula_lt (H := LOG_FILE_HDR_SIZE) hC hs
  rw [hF] at hdiv hmod hlt
  have hpos : group.real_position (log_group_calc_real_offset s group).toNat := by
    rw [log_group_calc_real_offset_toNat hg hs]
    exact ⟨hlt, by rw [hmod]; omega⟩
  refine ⟨hpos, ?_⟩
  rw [← UInt64.toNat_inj, log_group_calc_size_offset_toNat hg hpos,
    log_group_calc_real_offset_toNat hg hs, hdiv, hmod, Nat.add_sub_cancel_left]
  exact Nat.div_add_mod' s.toNat _

/-- The size offset of a real position is below the capacity. -/
theorem log_group_calc_size_offset_lt (hg : group.fits) {r : UInt64}
    (hr : group.real_position r.toNat) :
    (log_group_calc_size_offset r group).toNat <
      (group.file_size.toNat - LOG_FILE_HDR_SIZE) * group.n_files.toNat := by
  have hH := hg.hdr_lt
  have hq : r.toNat / group.file_size.toNat < group.n_files.toNat :=
    Nat.div_lt_of_lt_mul hr.1
  have hm := Nat.mod_lt r.toNat (show 0 < group.file_size.toNat by omega)
  rw [log_group_calc_size_offset_toNat hg hr]
  calc r.toNat / group.file_size.toNat * (group.file_size.toNat - LOG_FILE_HDR_SIZE) +
        (r.toNat % group.file_size.toNat - LOG_FILE_HDR_SIZE)
      < (r.toNat / group.file_size.toNat + 1) * (group.file_size.toNat - LOG_FILE_HDR_SIZE) := by
        rw [Nat.add_mul, Nat.one_mul]
        omega
    _ ≤ group.n_files.toNat * (group.file_size.toNat - LOG_FILE_HDR_SIZE) :=
        Nat.mul_le_mul_right _ hq
    _ = (group.file_size.toNat - LOG_FILE_HDR_SIZE) * group.n_files.toNat := Nat.mul_comm _ _

/-- `difference` of `log_group_calc_lsn_offset`, for an `lsn` before the anchor: the
capacity less the distance back, which is the distance forward modulo the capacity. -/
theorem back_difference_emod {G gs D : Nat} (hG : 0 < G) :
    ((gs + (G - D % G) : Nat) : Int) % G = ((gs : Int) - D) % G := by
  have hlt := Nat.mod_lt D hG
  have hdm := Nat.mod_add_div D G
  rw [Int.emod_eq_emod_iff_emod_sub_eq_zero, Int.emod_eq_zero_of_dvd]
  refine ⟨1 + D / G, ?_⟩
  push_cast [Nat.cast_sub hlt.le]
  have hcast : ((D % G : Nat) : Int) + G * (D / G : Nat) = D := by exact_mod_cast hdm
  push_cast at hcast
  linear_combination -hcast

/-- **`log_group_calc_lsn_offset` moves around the group** from a real position: for an
`lsn` below `2^63` it is a real position, whose size offset is the anchor's moved by the
lsn difference, modulo the capacity. -/
theorem log_group_calc_lsn_offset_spec (hg : group.fits)
    (hr : group.real_position group.lsn_offset.toNat) {lsn : UInt64} (hlsn : lsn.toNat < 2 ^ 63) :
    group.real_position (log_group_calc_lsn_offset lsn group).toNat ∧
      ((log_group_calc_size_offset (log_group_calc_lsn_offset lsn group) group).toNat : Int) =
        ((log_group_calc_size_offset group.lsn_offset group).toNat +
          ((lsn.toNat : Int) - group.lsn.toNat)) %
          ((group.file_size.toNat - LOG_FILE_HDR_SIZE) * group.n_files.toNat : Nat) := by
  have hH := hg.hdr_lt
  have hsize := hg.size_le
  have hcap := log_group_get_capacity_toNat hg
  set G := (group.file_size.toNat - LOG_FILE_HDR_SIZE) * group.n_files.toNat with hG_def
  have hG : 0 < G := Nat.mul_pos (by omega) (by have := hg.one_le; omega)
  have hGle : G ≤ 2 ^ 63 :=
    (Nat.mul_le_mul_right _ (Nat.sub_le _ _)).trans hsize
  have hgs := log_group_calc_size_offset_lt hg hr
  set gs := log_group_calc_size_offset group.lsn_offset group with hgs_def
  -- the offset the function hands to `log_group_calc_real_offset`, as a number
  obtain ⟨d, hoff, hcong⟩ : ∃ d : Nat,
      ((gs + (if lsn ≥ group.lsn then lsn - group.lsn
        else log_group_get_capacity group - (group.lsn - lsn) % log_group_get_capacity group)) %
          log_group_get_capacity group).toNat = (gs.toNat + d) % G ∧
      ((gs.toNat + d : Nat) : Int) % G = ((gs.toNat : Int) + ((lsn.toNat : Int) - group.lsn.toNat)) % G := by
    split
    · rename_i hge
      have hge' := UInt64.le_iff_toNat_le.1 hge
      refine ⟨lsn.toNat - group.lsn.toNat, ?_, ?_⟩
      · rw [UInt64.toNat_mod, UInt64.toNat_add, UInt64.toNat_sub_of_le _ _ hge, hcap,
          Nat.mod_eq_of_lt (show gs.toNat + (lsn.toNat - group.lsn.toNat) < 2 ^ 64 by omega)]
      · push_cast [Nat.cast_sub hge']
        ring_nf
    · rename_i hlt
      have hlt' : lsn.toNat < group.lsn.toNat := by
        simpa [UInt64.le_iff_toNat_le] using hlt
      have hmodlt := Nat.mod_lt (group.lsn.toNat - lsn.toNat) hG
      refine ⟨G - (group.lsn.toNat - lsn.toNat) % G, ?_, ?_⟩
      · have hle : (group.lsn - lsn) % log_group_get_capacity group ≤ log_group_get_capacity group := by
          rw [UInt64.le_iff_toNat_le, UInt64.toNat_mod, hcap,
            UInt64.toNat_sub_of_le _ _ (UInt64.le_iff_toNat_le.2 hlt'.le)]
          exact hmodlt.le
        rw [UInt64.toNat_mod, UInt64.toNat_add, UInt64.toNat_sub_of_le _ _ hle, UInt64.toNat_mod,
          UInt64.toNat_sub_of_le _ _ (UInt64.le_iff_toNat_le.2 hlt'.le), hcap,
          Nat.mod_eq_of_lt (show gs.toNat + (G - (group.lsn.toNat - lsn.toNat) % G) < 2 ^ 64 by
            omega)]
      · rw [back_difference_emod hG]
        push_cast [Nat.cast_sub hlt'.le]
        ring_nf
  have hoff_lt : ((gs + (if lsn ≥ group.lsn then lsn - group.lsn
      else log_group_get_capacity group - (group.lsn - lsn) % log_group_get_capacity group)) %
        log_group_get_capacity group).toNat < G := by
    rw [hoff]
    exact Nat.mod_lt _ hG
  obtain ⟨hpos, hsz⟩ := log_group_calc_real_offset_spec hg hoff_lt
  refine ⟨hpos, ?_⟩
  simp only [log_group_calc_lsn_offset]
  rw [hsz, hoff, Int.natCast_mod, hcong]

/-- A real position is the real offset of its size offset. -/
theorem log_group_calc_real_offset_size_offset (hg : group.fits) {r : UInt64}
    (hr : group.real_position r.toNat) :
    log_group_calc_real_offset (log_group_calc_size_offset r group) group = r := by
  have hH := hg.hdr_lt
  have hC : 0 < group.file_size.toNat - LOG_FILE_HDR_SIZE := by omega
  have hm := Nat.mod_lt r.toNat (show 0 < group.file_size.toNat by omega)
  have hsz := log_group_calc_size_offset_toNat hg hr
  -- the size offset is `q` files of data and `m - H` bytes into the next
  have hdiv : (log_group_calc_size_offset r group).toNat /
      (group.file_size.toNat - LOG_FILE_HDR_SIZE) = r.toNat / group.file_size.toNat := by
    rw [hsz, Nat.mul_comm, Nat.mul_add_div hC,
      Nat.div_eq_of_lt (show r.toNat % group.file_size.toNat - LOG_FILE_HDR_SIZE <
        group.file_size.toNat - LOG_FILE_HDR_SIZE by omega), Nat.add_zero]
  have hmod : (log_group_calc_size_offset r group).toNat %
      (group.file_size.toNat - LOG_FILE_HDR_SIZE) = r.toNat % group.file_size.toNat -
        LOG_FILE_HDR_SIZE := by
    rw [hsz, Nat.mul_comm, Nat.mul_add_mod,
      Nat.mod_eq_of_lt (show r.toNat % group.file_size.toNat - LOG_FILE_HDR_SIZE <
        group.file_size.toNat - LOG_FILE_HDR_SIZE by omega)]
  rw [← UInt64.toNat_inj, log_group_calc_real_offset_toNat hg (log_group_calc_size_offset_lt hg hr),
    hdiv, hmod, Nat.add_sub_cancel' hr.2]
  exact Nat.div_add_mod' r.toNat _

end Offsets

/-! ## The anchor over runs of `log_group_set_fields` -/

/-- The size offset of `lsn` when the data of the first file starts at `first_header_lsn`:
the lsn distance modulo the capacity. -/
def log_group_t.anchor_size_offset (group : log_group_t) (first_header_lsn lsn : UInt64) : Nat :=
  (((lsn.toNat : Int) - first_header_lsn.toNat) %
    ((group.file_size.toNat - LOG_FILE_HDR_SIZE) * group.n_files.toNat : Nat)).toNat

/-- The group's anchor is where its lsn is, counted from `first_header_lsn`. -/
def log_group_t.Anchored (first_header_lsn : UInt64) (group : log_group_t) : Prop :=
  group.lsn_offset = log_group_calc_real_offset
    (UInt64.ofNat (group.anchor_size_offset first_header_lsn group.lsn)) group

section Anchor

variable {group : log_group_t} {first_header_lsn : UInt64}

theorem anchor_size_offset_lt (hg : group.fits) (lsn : UInt64) :
    group.anchor_size_offset first_header_lsn lsn <
      (group.file_size.toNat - LOG_FILE_HDR_SIZE) * group.n_files.toNat := by
  have hG : 0 < (group.file_size.toNat - LOG_FILE_HDR_SIZE) * group.n_files.toNat :=
    Nat.mul_pos (by have := hg.hdr_lt; omega) (by have := hg.one_le; omega)
  have h0 := Int.emod_nonneg ((lsn.toNat : Int) - first_header_lsn.toNat)
    (show (((group.file_size.toNat - LOG_FILE_HDR_SIZE) * group.n_files.toNat : Nat) : Int) ≠ 0
      by omega)
  have h1 := Int.emod_lt_of_pos ((lsn.toNat : Int) - first_header_lsn.toNat)
    (show (0 : Int) < ((group.file_size.toNat - LOG_FILE_HDR_SIZE) * group.n_files.toNat : Nat)
      by omega)
  unfold log_group_t.anchor_size_offset
  omega

theorem toNat_anchor_size_offset (hg : group.fits) (lsn : UInt64) :
    (UInt64.ofNat (group.anchor_size_offset first_header_lsn lsn)).toNat =
      group.anchor_size_offset first_header_lsn lsn := by
  have := @anchor_size_offset_lt group first_header_lsn hg lsn
  have hsize := hg.size_le
  have : (group.file_size.toNat - LOG_FILE_HDR_SIZE) * group.n_files.toNat ≤
      group.file_size.toNat * group.n_files.toNat := Nat.mul_le_mul_right _ (Nat.sub_le _ _)
  rw [UInt64.toNat_ofNat', Nat.mod_eq_of_lt (by omega)]

/-- **From an anchored group, `log_group_calc_lsn_offset` finds where `lsn` is**, counted
from `first_header_lsn` like the anchor. -/
theorem log_group_calc_lsn_offset_anchored (hg : group.fits) (ha : group.Anchored first_header_lsn)
    {lsn : UInt64} (hlsn : lsn.toNat < 2 ^ 63) :
    log_group_calc_lsn_offset lsn group = log_group_calc_real_offset
      (UInt64.ofNat (group.anchor_size_offset first_header_lsn lsn)) group := by
  have hanchor := @anchor_size_offset_lt group first_header_lsn hg group.lsn
  rw [← toNat_anchor_size_offset hg] at hanchor
  obtain ⟨hpos0, hsz0⟩ := log_group_calc_real_offset_spec hg hanchor
  rw [← ha] at hpos0 hsz0
  obtain ⟨hpos, hsz⟩ := log_group_calc_lsn_offset_spec hg hpos0 hlsn
  rw [← log_group_calc_real_offset_size_offset hg hpos]
  congr 1
  -- both size offsets are the lsn distance from `first_header_lsn` modulo the capacity
  rw [← UInt64.toNat_inj, toNat_anchor_size_offset hg, ← Int.ofNat_inj, hsz, hsz0,
    toNat_anchor_size_offset hg, log_group_t.anchor_size_offset, log_group_t.anchor_size_offset,
    Int.toNat_of_nonneg (Int.emod_nonneg _ (by
      have : 0 < (group.file_size.toNat - LOG_FILE_HDR_SIZE) * group.n_files.toNat :=
        Nat.mul_pos (by have := hg.hdr_lt; omega) (by have := hg.one_le; omega)
      omega)),
    Int.toNat_of_nonneg (Int.emod_nonneg _ (by
      have : 0 < (group.file_size.toNat - LOG_FILE_HDR_SIZE) * group.n_files.toNat :=
        Nat.mul_pos (by have := hg.hdr_lt; omega) (by have := hg.one_le; omega)
      omega)),
    Int.emod_add_emod]
  ring_nf

/-- `log_group_set_fields` keeps the anchor where its lsn is. -/
theorem log_group_set_fields_anchored (hg : group.fits) (ha : group.Anchored first_header_lsn)
    {lsn : UInt64} (hlsn : lsn.toNat < 2 ^ 63) :
    (log_group_set_fields group lsn).Anchored first_header_lsn :=
  log_group_calc_lsn_offset_anchored hg ha hlsn

theorem log_group_set_fields_fits (hg : group.fits) (lsn : UInt64) :
    (log_group_set_fields group lsn).fits :=
  ⟨hg.hdr_lt, hg.one_le, hg.size_le⟩

/-- **Over any run of `log_group_set_fields`** with lsns below `2^63`, an anchored group stays
anchored: by induction on the run, from the step lemma. -/
theorem log_group_set_fields_run :
    ∀ (lsns : List UInt64) {group : log_group_t}, group.fits → group.Anchored first_header_lsn →
      (∀ lsn ∈ lsns, lsn.toNat < 2 ^ 63) →
      (lsns.foldl log_group_set_fields group).fits ∧
        (lsns.foldl log_group_set_fields group).Anchored first_header_lsn
  | [], _, hg, ha, _ => ⟨hg, ha⟩
  | lsn :: lsns, _, hg, ha, hlsns => by
    have hlsn := hlsns lsn (List.mem_cons_self ..)
    exact log_group_set_fields_run lsns (log_group_set_fields_fits hg lsn)
      (log_group_set_fields_anchored hg ha hlsn) fun l hl => hlsns l (List.mem_cons_of_mem _ hl)

/-- Two checkpoints of a group of two 48 MiB files, anchored at LSN 8192, keep it anchored. -/
theorem log_group_set_fields_run_two_lsns :
    (([10000, 70000000] : List UInt64).foldl log_group_set_fields
        ⟨2, 50331648, 8204, 2060⟩).fits ∧
      (([10000, 70000000] : List UInt64).foldl log_group_set_fields
        ⟨2, 50331648, 8204, 2060⟩).Anchored 8192 := by
  have hg : (⟨2, 50331648, 8204, 2060⟩ : log_group_t).fits := ⟨by decide, by decide, by decide⟩
  have ha : (⟨2, 50331648, 8204, 2060⟩ : log_group_t).Anchored 8192 := by
    unfold log_group_t.Anchored
    decide
  have hl : ∀ lsn ∈ ([10000, 70000000] : List UInt64), lsn.toNat < 2 ^ 63 := by
    intro lsn hlsn
    simp only [List.mem_cons, List.not_mem_nil, or_false] at hlsn
    rcases hlsn with rfl | rfl <;> decide
  exact log_group_set_fields_run [10000, 70000000] hg ha hl

/-! ## `log_calc_where_lsn_is` -/

theorem toInt_toInt64_of_lt {u : UInt64} (h : u.toNat < 2 ^ 63) : u.toInt64.toInt = u.toNat := by
  rw [← UInt64.ofNat_toNat (x := u), UInt64.toInt64_ofNat', UInt64.toNat_ofNat',
    Nat.mod_eq_of_lt (by omega)]
  exact Int64.toInt_ofNat_of_lt h

/-- The file and the offset in it that `log_calc_where_lsn_is` computes from a distance `x`
past `first_header_lsn`: those of the data byte `x` modulo the capacity. -/
theorem where_of_distance (hg : group.fits) {x : UInt64} {a : Nat}
    (hx : x.toNat % ((group.file_size.toNat - LOG_FILE_HDR_SIZE) * group.n_files.toNat) = a) :
    ((((x / (group.file_size - LOG_FILE_HDR_SIZE.toUInt64)) % group.n_files).toNat : Int) *
        group.file_size.toNat +
      ((x % (group.file_size - LOG_FILE_HDR_SIZE.toUInt64)).toInt64 +
        LOG_FILE_HDR_SIZE.toInt64).toInt) =
      (log_group_calc_real_offset (UInt64.ofNat a) group).toNat := by
  have hH := hg.hdr_lt
  have hsize := hg.size_le
  have hC : 0 < group.file_size.toNat - LOG_FILE_HDR_SIZE := by omega
  have hG : 0 < (group.file_size.toNat - LOG_FILE_HDR_SIZE) * group.n_files.toNat :=
    Nat.mul_pos hC (by have := hg.one_le; omega)
  have ha : a < (group.file_size.toNat - LOG_FILE_HDR_SIZE) * group.n_files.toNat := by
    rw [← hx]
    exact Nat.mod_lt _ hG
  have hGle : (group.file_size.toNat - LOG_FILE_HDR_SIZE) * group.n_files.toNat ≤ 2 ^ 63 :=
    (Nat.mul_le_mul_right _ (Nat.sub_le _ _)).trans hsize
  have haU : (UInt64.ofNat a).toNat = a := by
    rw [UInt64.toNat_ofNat', Nat.mod_eq_of_lt (by omega)]
  have hF : group.file_size.toNat ≤ 2 ^ 63 :=
    (Nat.le_mul_of_pos_right _ (by have := hg.one_le; omega)).trans hsize
  -- the offset in the file is below the file size, so below `2^63`
  have hxC := Nat.mod_lt x.toNat hC
  have hoff : ((x % (group.file_size - LOG_FILE_HDR_SIZE.toUInt64)).toInt64 +
      LOG_FILE_HDR_SIZE.toInt64).toInt = (x.toNat % (group.file_size.toNat - LOG_FILE_HDR_SIZE) +
        LOG_FILE_HDR_SIZE : Nat) := by
    rw [Int64.toInt_add, toInt_toInt64_of_lt (by rw [UInt64.toNat_mod, hg.data_toNat]; omega),
      UInt64.toNat_mod, hg.data_toNat, Int64.toInt_ofNat_of_lt (by decide),
      Int.bmod_eq_of_le (by omega) (by push_cast; omega)]
    push_cast
    ring
  rw [hoff, log_group_calc_real_offset_toNat hg (by rwa [haU]), haU, ← hx,
    Nat.mod_mul_right_div_self, Nat.mod_mul_right_mod, UInt64.toNat_mod, UInt64.toNat_div,
    hg.data_toNat]
  push_cast
  ring

/-- Below `first_header_lsn`, `log_calc_where_lsn_is` lifts `lsn` by one capacity more than
fit in the distance back, with no wrap. -/
theorem lifted_lsn_toNat (hg : group.fits) {lsn : UInt64}
    (hfirst : first_header_lsn.toNat < 2 ^ 63) (hlt : lsn.toNat < first_header_lsn.toNat) :
    (lsn + ((1 + (first_header_lsn - lsn) / ((group.file_size.toInt64 -
        LOG_FILE_HDR_SIZE.toInt64) * group.n_files.toInt64).toUInt64).toInt64 *
        (group.file_size.toInt64 - LOG_FILE_HDR_SIZE.toInt64) *
          group.n_files.toInt64).toUInt64).toNat =
      lsn.toNat + (1 + (first_header_lsn.toNat - lsn.toNat) /
        ((group.file_size.toNat - LOG_FILE_HDR_SIZE) * group.n_files.toNat)) *
        ((group.file_size.toNat - LOG_FILE_HDR_SIZE) * group.n_files.toNat) := by
  have hH := hg.hdr_lt
  have hsize := hg.size_le
  have hcap := log_group_get_capacity_toNat hg
  set G := (group.file_size.toNat - LOG_FILE_HDR_SIZE) * group.n_files.toNat with hG_def
  have hG : 0 < G := Nat.mul_pos (by omega) (by have := hg.one_le; omega)
  have hGle : G ≤ 2 ^ 63 := (Nat.mul_le_mul_right _ (Nat.sub_le _ _)).trans hsize
  -- the `ib_int64_t` capacity is the `lsn_t` one: both wrap alike
  have hcapU : (group.file_size.toInt64 - LOG_FILE_HDR_SIZE.toInt64).toUInt64 =
      group.file_size - LOG_FILE_HDR_SIZE.toUInt64 := by
    rw [Int64.toUInt64_sub, UInt64.toUInt64_toInt64, Int64.toUInt64_ofNat']
  have hGU : ((group.file_size.toInt64 - LOG_FILE_HDR_SIZE.toInt64) *
      group.n_files.toInt64).toUInt64 = log_group_get_capacity group := by
    rw [Int64.toUInt64_mul, hcapU, UInt64.toUInt64_toInt64]
    rfl
  have hD : (first_header_lsn - lsn).toNat = first_header_lsn.toNat - lsn.toNat :=
    UInt64.toNat_sub_of_le _ _ (UInt64.le_iff_toNat_le.2 hlt.le)
  -- whole capacities past the distance back: at most the distance and one capacity
  have hmul := Nat.lt_div_mul_add (a := first_header_lsn.toNat - lsn.toNat) hG
  have hk : (1 + (first_header_lsn.toNat - lsn.toNat) / G) * G ≤
      first_header_lsn.toNat - lsn.toNat + G := by
    have := Nat.div_mul_le_self (first_header_lsn.toNat - lsn.toNat) G
    rw [Nat.add_mul, Nat.one_mul]
    omega
  have hadd : ((1 + (first_header_lsn - lsn) / ((group.file_size.toInt64 -
      LOG_FILE_HDR_SIZE.toInt64) * group.n_files.toInt64).toUInt64).toInt64 *
      (group.file_size.toInt64 - LOG_FILE_HDR_SIZE.toInt64) *
        group.n_files.toInt64).toUInt64.toNat =
      (1 + (first_header_lsn.toNat - lsn.toNat) / G) * G := by
    rw [Int64.toUInt64_mul, Int64.toUInt64_mul, UInt64.toUInt64_toInt64, hcapU,
      UInt64.toUInt64_toInt64, hGU, UInt64.mul_assoc, UInt64.toNat_mul,
      show (group.file_size - LOG_FILE_HDR_SIZE.toUInt64) * group.n_files =
        log_group_get_capacity group from rfl, hcap, UInt64.toNat_add, UInt64.toNat_div, hD,
      hcap, UInt64.toNat_one, Nat.mod_eq_of_lt (a := 1 + _) (by
        have := Nat.div_le_self (first_header_lsn.toNat - lsn.toNat) G
        omega), Nat.mod_eq_of_lt (by omega)]
  rw [UInt64.toNat_add, hadd, Nat.mod_eq_of_lt (by omega)]

/-- The lsn that `log_calc_where_lsn_is` measures from: `lsn` itself from `first_header_lsn`
on, and below it `lsn` lifted by whole capacities. Either way it is not below
`first_header_lsn`, and its distance past it is the anchor's size offset modulo the
capacity. -/
theorem measured_lsn_spec (hg : group.fits) {lsn : UInt64}
    (hfirst : first_header_lsn.toNat < 2 ^ 63) :
    first_header_lsn ≤ (if lsn < first_header_lsn then
        lsn + ((1 + (first_header_lsn - lsn) / ((group.file_size.toInt64 -
          LOG_FILE_HDR_SIZE.toInt64) * group.n_files.toInt64).toUInt64).toInt64 *
          (group.file_size.toInt64 - LOG_FILE_HDR_SIZE.toInt64) * group.n_files.toInt64).toUInt64
       else lsn) ∧
      ((if lsn < first_header_lsn then
        lsn + ((1 + (first_header_lsn - lsn) / ((group.file_size.toInt64 -
          LOG_FILE_HDR_SIZE.toInt64) * group.n_files.toInt64).toUInt64).toInt64 *
          (group.file_size.toInt64 - LOG_FILE_HDR_SIZE.toInt64) * group.n_files.toInt64).toUInt64
       else lsn) - first_header_lsn).toNat %
        ((group.file_size.toNat - LOG_FILE_HDR_SIZE) * group.n_files.toNat) =
        group.anchor_size_offset first_header_lsn lsn := by
  have hH := hg.hdr_lt
  set G := (group.file_size.toNat - LOG_FILE_HDR_SIZE) * group.n_files.toNat with hG_def
  have hG : 0 < G := Nat.mul_pos (by omega) (by have := hg.one_le; omega)
  split
  · rename_i hlt
    have hlt' := UInt64.lt_iff_toNat_lt.1 hlt
    have hsum := lifted_lsn_toNat hg hfirst hlt'
    rw [← hG_def] at hsum
    -- one capacity more than fit in the distance back reaches past it
    have hmul := Nat.lt_div_mul_add (a := first_header_lsn.toNat - lsn.toNat) hG
    have hge : first_header_lsn ≤ lsn + ((1 + (first_header_lsn - lsn) /
        ((group.file_size.toInt64 - LOG_FILE_HDR_SIZE.toInt64) *
          group.n_files.toInt64).toUInt64).toInt64 *
        (group.file_size.toInt64 - LOG_FILE_HDR_SIZE.toInt64) *
          group.n_files.toInt64).toUInt64 := by
      rw [UInt64.le_iff_toNat_le, hsum, Nat.add_mul, Nat.one_mul]
      omega
    refine ⟨hge, ?_⟩
    rw [UInt64.toNat_sub_of_le _ _ hge, hsum, log_group_t.anchor_size_offset, ← hG_def,
      ← Int.ofNat_inj, Int.toNat_of_nonneg (Int.emod_nonneg _ (by omega)), Int.natCast_mod]
    -- whole capacities vanish modulo the capacity
    rw [Int.emod_eq_emod_iff_emod_sub_eq_zero]
    push_cast [Nat.cast_sub (show first_header_lsn.toNat ≤ lsn.toNat +
      (1 + (first_header_lsn.toNat - lsn.toNat) / G) * G by
        rw [Nat.add_mul, Nat.one_mul]; omega)]
    rw [show (lsn.toNat : Int) + (1 + ((first_header_lsn.toNat - lsn.toNat : Nat) : Int) /
        (G : Int)) * G - first_header_lsn.toNat - ((lsn.toNat : Int) - first_header_lsn.toNat) =
        G * (1 + ((first_header_lsn.toNat - lsn.toNat : Nat) : Int) / (G : Int)) by ring]
    exact Int.mul_emod_right _ _
  · rename_i hge
    have hge' : first_header_lsn ≤ lsn := by
      simpa [UInt64.lt_iff_toNat_lt, UInt64.le_iff_toNat_le] using hge
    refine ⟨hge', ?_⟩
    rw [UInt64.toNat_sub_of_le _ _ hge', log_group_t.anchor_size_offset, ← hG_def,
      ← Int.ofNat_inj, Int.toNat_of_nonneg (Int.emod_nonneg _ (by omega)), Int.natCast_mod,
      Nat.cast_sub (UInt64.le_iff_toNat_le.1 hge')]

/-- **`log_calc_where_lsn_is` finds the byte of `lsn`** counted from `first_header_lsn`: the
assertion holds, and the file number and the offset in it name the real
offset of the lsn distance modulo the capacity. -/
theorem log_calc_where_lsn_is_spec (hg : group.fits) {lsn : UInt64}
    (hfirst : first_header_lsn.toNat < 2 ^ 63) :
    ∃ file_no file_offset,
      log_calc_where_lsn_is first_header_lsn lsn group.n_files group.file_size.toInt64 =
        some (file_no, file_offset) ∧
      (file_no.toNat : Int) * group.file_size.toNat + file_offset.toInt =
        (log_group_calc_real_offset
          (UInt64.ofNat (group.anchor_size_offset first_header_lsn lsn)) group).toNat := by
  have hcapU : (group.file_size.toInt64 - LOG_FILE_HDR_SIZE.toInt64).toUInt64 =
      group.file_size - LOG_FILE_HDR_SIZE.toUInt64 := by
    rw [Int64.toUInt64_sub, UInt64.toUInt64_toInt64, Int64.toUInt64_ofNat']
  obtain ⟨hge, hdist⟩ := measured_lsn_spec hg hfirst
  refine ⟨_, _, ?_, where_of_distance hg hdist⟩
  simp only [log_calc_where_lsn_is, hge, hcapU, ↓reduceIte]

end Anchor

/-! ## The positions of a group -/

/-- **Redo-log positions agree**, for a group of at most `2^63` bytes: below the capacity the
real and the size offsets invert each other; from a real position,
`log_group_calc_lsn_offset` of an lsn below `2^63` is a real position moved by the lsn
difference modulo the capacity; and at an anchor counted from a `first_header_lsn` below
`2^63` it is the byte that `log_calc_where_lsn_is` names. -/
theorem log_group_offsets (group : log_group_t) (hH : LOG_FILE_HDR_SIZE < group.file_size.toNat)
    (hn : 1 ≤ group.n_files.toNat) (hsize : group.file_size.toNat * group.n_files.toNat ≤ 2 ^ 63) :
    (∀ s : UInt64, s.toNat < (group.file_size.toNat - LOG_FILE_HDR_SIZE) * group.n_files.toNat →
        group.real_position (log_group_calc_real_offset s group).toNat ∧
          log_group_calc_size_offset (log_group_calc_real_offset s group) group = s) ∧
      (group.real_position group.lsn_offset.toNat → ∀ lsn : UInt64, lsn.toNat < 2 ^ 63 →
        group.real_position (log_group_calc_lsn_offset lsn group).toNat ∧
          ((log_group_calc_size_offset (log_group_calc_lsn_offset lsn group) group).toNat : Int) ≡
            (log_group_calc_size_offset group.lsn_offset group).toNat +
              ((lsn.toNat : Int) - group.lsn.toNat)
            [ZMOD ((group.file_size.toNat - LOG_FILE_HDR_SIZE) * group.n_files.toNat : Nat)]) ∧
      (∀ first_header_lsn : UInt64, first_header_lsn.toNat < 2 ^ 63 →
        group.Anchored first_header_lsn → ∀ lsn : UInt64, lsn.toNat < 2 ^ 63 →
        ∃ file_no file_offset,
          log_calc_where_lsn_is first_header_lsn lsn group.n_files group.file_size.toInt64 =
            some (file_no, file_offset) ∧
          (file_no.toNat : Int) * group.file_size.toNat + file_offset.toInt =
            (log_group_calc_lsn_offset lsn group).toNat) := by
  have hg : group.fits := ⟨hH, hn, hsize⟩
  refine ⟨fun s hs => log_group_calc_real_offset_spec hg hs, fun hr lsn hlsn => ?_,
    fun first hfirst ha lsn hlsn => ?_⟩
  · obtain ⟨hpos, hsz⟩ := log_group_calc_lsn_offset_spec hg hr hlsn
    refine ⟨hpos, ?_⟩
    rw [hsz]
    exact Int.mod_modEq _ _
  · rw [log_group_calc_lsn_offset_anchored hg ha hlsn]
    exact log_calc_where_lsn_is_spec hg hfirst

/-- **Redo-log positions agree for every group the server starts with.** The startup check
of `srv0start.cc` refuses log files whose combined size is 512 GB or more (the block numbers
of `log_block_convert_lsn_to_no` stop at `2^30` blocks of 512 bytes); below that bound the
real and the size offsets invert each other, `log_group_calc_lsn_offset` moves by the lsn
difference modulo the capacity, and at an anchor it is the byte `log_calc_where_lsn_is`
names. -/
theorem log_group_offsets_below_512_gb (group : log_group_t)
    (hH : LOG_FILE_HDR_SIZE < group.file_size.toNat) (hn : 1 ≤ group.n_files.toNat)
    (hsize : group.file_size.toNat * group.n_files.toNat < 512 * 1024 * 1024 * 1024) :
    (∀ s : UInt64, s.toNat < (group.file_size.toNat - LOG_FILE_HDR_SIZE) * group.n_files.toNat →
        group.real_position (log_group_calc_real_offset s group).toNat ∧
          log_group_calc_size_offset (log_group_calc_real_offset s group) group = s) ∧
      (group.real_position group.lsn_offset.toNat → ∀ lsn : UInt64, lsn.toNat < 2 ^ 63 →
        group.real_position (log_group_calc_lsn_offset lsn group).toNat ∧
          ((log_group_calc_size_offset (log_group_calc_lsn_offset lsn group) group).toNat : Int) ≡
            (log_group_calc_size_offset group.lsn_offset group).toNat +
              ((lsn.toNat : Int) - group.lsn.toNat)
            [ZMOD ((group.file_size.toNat - LOG_FILE_HDR_SIZE) * group.n_files.toNat : Nat)]) ∧
      (∀ first_header_lsn : UInt64, first_header_lsn.toNat < 2 ^ 63 →
        group.Anchored first_header_lsn → ∀ lsn : UInt64, lsn.toNat < 2 ^ 63 →
        ∃ file_no file_offset,
          log_calc_where_lsn_is first_header_lsn lsn group.n_files group.file_size.toInt64 =
            some (file_no, file_offset) ∧
          (file_no.toNat : Int) * group.file_size.toNat + file_offset.toInt =
            (log_group_calc_lsn_offset lsn group).toNat) :=
  log_group_offsets group hH hn (by omega)

/-- Two files of 48 MB, the default group. -/
theorem log_group_offsets_below_512_gb_two_files :
    LOG_FILE_HDR_SIZE < (⟨2, 50331648, 8204, 2060⟩ : log_group_t).file_size.toNat ∧
      1 ≤ (⟨2, 50331648, 8204, 2060⟩ : log_group_t).n_files.toNat ∧
      (⟨2, 50331648, 8204, 2060⟩ : log_group_t).file_size.toNat *
        (⟨2, 50331648, 8204, 2060⟩ : log_group_t).n_files.toNat < 512 * 1024 * 1024 * 1024 ∧
      ((∀ s : UInt64, s.toNat < ((⟨2, 50331648, 8204, 2060⟩ : log_group_t).file_size.toNat -
            LOG_FILE_HDR_SIZE) * (⟨2, 50331648, 8204, 2060⟩ : log_group_t).n_files.toNat →
          (⟨2, 50331648, 8204, 2060⟩ : log_group_t).real_position
            (log_group_calc_real_offset s ⟨2, 50331648, 8204, 2060⟩).toNat ∧
          log_group_calc_size_offset (log_group_calc_real_offset s ⟨2, 50331648, 8204, 2060⟩)
            ⟨2, 50331648, 8204, 2060⟩ = s) ∧
        ((⟨2, 50331648, 8204, 2060⟩ : log_group_t).real_position
            (⟨2, 50331648, 8204, 2060⟩ : log_group_t).lsn_offset.toNat →
          ∀ lsn : UInt64, lsn.toNat < 2 ^ 63 →
          (⟨2, 50331648, 8204, 2060⟩ : log_group_t).real_position
              (log_group_calc_lsn_offset lsn ⟨2, 50331648, 8204, 2060⟩).toNat ∧
            ((log_group_calc_size_offset (log_group_calc_lsn_offset lsn ⟨2, 50331648, 8204, 2060⟩)
              ⟨2, 50331648, 8204, 2060⟩).toNat : Int) ≡
              (log_group_calc_size_offset (⟨2, 50331648, 8204, 2060⟩ : log_group_t).lsn_offset
                ⟨2, 50331648, 8204, 2060⟩).toNat +
                ((lsn.toNat : Int) - (⟨2, 50331648, 8204, 2060⟩ : log_group_t).lsn.toNat)
              [ZMOD (((⟨2, 50331648, 8204, 2060⟩ : log_group_t).file_size.toNat -
                LOG_FILE_HDR_SIZE) * (⟨2, 50331648, 8204, 2060⟩ : log_group_t).n_files.toNat :
                  Nat)]) ∧
        (∀ first_header_lsn : UInt64, first_header_lsn.toNat < 2 ^ 63 →
          (⟨2, 50331648, 8204, 2060⟩ : log_group_t).Anchored first_header_lsn →
          ∀ lsn : UInt64, lsn.toNat < 2 ^ 63 →
          ∃ file_no file_offset,
            log_calc_where_lsn_is first_header_lsn lsn
                (⟨2, 50331648, 8204, 2060⟩ : log_group_t).n_files
                (⟨2, 50331648, 8204, 2060⟩ : log_group_t).file_size.toInt64 =
              some (file_no, file_offset) ∧
            (file_no.toNat : Int) * (⟨2, 50331648, 8204, 2060⟩ : log_group_t).file_size.toNat +
                file_offset.toInt =
              (log_group_calc_lsn_offset lsn ⟨2, 50331648, 8204, 2060⟩).toNat)) :=
  ⟨by decide, by decide, by decide,
    log_group_offsets_below_512_gb ⟨2, 50331648, 8204, 2060⟩ (by decide) (by decide) (by decide)⟩

end AliSql
