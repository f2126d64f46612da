import Mathlib
import AliSql.Libc.Basic

/-!
# SIDs and the `Sid_map`

A GTID names its server by a SID, a 16-byte UUID (`rpl_sid`, `Uuid` in `sql/uuid.cc`),
written in text as 36 characters: five dash-separated groups of 4, 2, 2, 2 and 6
bytes in lower-case hexadecimal. `Gtid_set` never stores SIDs: it indexes its interval
lists by SIDNO, a small integer that a shared `Sid_map` (`sql/rpl_gtid_sid_map.cc`)
hands out, `1, 2, 3, …` in order of first appearance. The map also keeps the SIDNOs
sorted by SID (`_sorted`), which is the order in which `Gtid_set::to_string` and
`Gtid_set::encode` walk the set.

This file models `Uuid::parse`, `Uuid::to_string`, `Sid_map::add_sid` (with
`add_node`'s insertion into `_sorted`) and the lookups, and proves the two facts the
round-trip theorems rest on:

* `Uuid.parse_to_string`: the text of a SID parses back to that SID;
* `Sid_map.add_sid_of_get`: adding a SID the map already holds returns its SIDNO and
  leaves the map alone — so a set's text or encoding, read back over the same map,
  lands on the same SIDNOs.

`Sid_map.WF` is the map's invariant (SIDs distinct, `_sorted` a permutation of the
SIDNOs), and `add_sid` keeps it. Allocation failures of `add_node` (`my_malloc`,
`insert_dynamic`, `my_hash_insert`) are not modelled.
-/

set_option autoImplicit false

namespace AliSql
namespace Gtid

open Libc

/-! ## `Uuid` -/

/-- `Uuid::bytes_per_section`. -/
def bytes_per_section : List Nat := [4, 2, 2, 2, 6]

/-- `Uuid::TEXT_LENGTH`. -/
def TEXT_LENGTH : Nat := 36

/-- The `hex_to_byte` table of `uuid.cc`: a hexadecimal digit of either case. -/
def hex_to_byte (c : Char) : Option Nat :=
  if '0' ≤ c ∧ c ≤ '9' then some (c.toNat - '0'.toNat)
  else if 'A' ≤ c ∧ c ≤ 'F' then some (c.toNat - 'A'.toNat + 10)
  else if 'a' ≤ c ∧ c ≤ 'f' then some (c.toNat - 'a'.toNat + 10)
  else none

/-- `byte_to_hex[d]` of `Uuid::to_string`, the string `"0123456789abcdef"`. -/
def byte_to_hex (d : Nat) : Char := "0123456789abcdef".toList.getD d '0'

/-- `rpl_sid`: sixteen bytes. -/
structure Uuid where
  bytes : List UInt8
  length_bytes : bytes.length = 16
deriving DecidableEq

/-- The bytes of one group of `Uuid::parse`: `n` pairs of hexadecimal digits. -/
def parse_bytes : Nat → List Char → Option (List UInt8 × List Char)
  | 0, s => some ([], s)
  | n + 1, s =>
    match hex_to_byte (peek s), hex_to_byte (peek s.tail) with
    | some hi, some lo =>
      (parse_bytes n (s.drop 2)).map fun r => (UInt8.ofNat (hi * 16 + lo) :: r.1, r.2)
    | _, _ => none

/-- The loop of `Uuid::parse` over the groups; every group but the first is preceded
    by `'-'`. -/
def parse_sections : List Nat → List Char → Bool → Option (List UInt8)
  | [], _, _ => some []
  | n :: ns, s, dash =>
    let s' := if dash then (if peek s = '-' then some s.tail else none) else some s
    match s' with
    | none => none
    | some s =>
      match parse_bytes n s with
      | none => none
      | some (bs, s) => (parse_sections ns s true).map (bs ++ ·)

/-- `Uuid::parse`. The callers step over `TEXT_LENGTH` characters afterwards. (The
    last branch is never taken: the groups always yield 16 bytes.) -/
def Uuid.parse (s : List Char) : Option Uuid :=
  match parse_sections bytes_per_section s false with
  | some bs => if h : bs.length = 16 then some ⟨bs, h⟩ else none
  | none => none

/-- The two characters `Uuid::to_string` writes for one byte. -/
def hex_digits (b : UInt8) : List Char :=
  [byte_to_hex (b.toNat >>> 4), byte_to_hex (b.toNat &&& 0xf)]

/-- The loop of `Uuid::to_string` over the groups. -/
def sections_to_string : List Nat → List UInt8 → Bool → List Char
  | [], _, _ => []
  | n :: ns, bs, dash =>
    (if dash then ['-'] else []) ++ (bs.take n).flatMap hex_digits ++
      sections_to_string ns (bs.drop n) true

/-- `Uuid::to_string`. -/
def Uuid.to_string (u : Uuid) : List Char := sections_to_string bytes_per_section u.bytes false

theorem hex_to_byte_byte_to_hex : ∀ d : Fin 16, hex_to_byte (byte_to_hex d) = some d := by
  decide

theorem hex_digits_eq (b : UInt8) :
    hex_digits b = [byte_to_hex (b.toNat / 16), byte_to_hex (b.toNat % 16)] := by
  have h₁ : b.toNat >>> 4 = b.toNat / 16 := Nat.shiftRight_eq_div_pow _ _
  have h₂ : b.toNat &&& 0xf = b.toNat % 16 := Nat.and_two_pow_sub_one_eq_mod _ 4
  rw [hex_digits, h₁, h₂]

/-- One group's digits read back to its bytes. -/
theorem parse_bytes_flatMap :
    ∀ (bs : List UInt8) (rest : List Char),
      parse_bytes bs.length (bs.flatMap hex_digits ++ rest) = some (bs, rest)
  | [], rest => rfl
  | b :: bs, rest => by
    have hlt : b.toNat < 256 := b.toNat_lt
    have hhi := hex_to_byte_byte_to_hex ⟨b.toNat / 16, by omega⟩
    have hlo := hex_to_byte_byte_to_hex ⟨b.toNat % 16, by omega⟩
    have hval : UInt8.ofNat (b.toNat / 16 * 16 + b.toNat % 16) = b := by
      rw [show b.toNat / 16 * 16 + b.toNat % 16 = b.toNat by omega]
      exact UInt8.ofNat_toNat
    simp only [List.flatMap_cons, hex_digits_eq, List.cons_append, List.nil_append,
      List.length_cons, parse_bytes, peek_cons, List.tail_cons, List.drop_succ_cons,
      List.drop_zero] at hhi hlo ⊢
    rw [hhi, hlo, parse_bytes_flatMap bs rest]
    simp [hval]

theorem parse_sections_to_string :
    ∀ (ns : List Nat) (bs : List UInt8) (dash : Bool) (rest : List Char),
      bs.length = ns.sum →
      parse_sections ns (sections_to_string ns bs dash ++ rest) dash = some bs
  | [], bs, _, _, h => by
    simp only [List.sum_nil, List.length_eq_zero_iff] at h
    simp [parse_sections, h]
  | n :: ns, bs, dash, rest, h => by
    have htake : (bs.take n).length = n := by
      simp only [List.length_take, List.sum_cons] at h ⊢
      omega
    have hdrop : (bs.drop n).length = ns.sum := by
      simp only [List.length_drop, List.sum_cons] at h ⊢
      omega
    have hsec := parse_bytes_flatMap (bs.take n) (sections_to_string ns (bs.drop n) true ++ rest)
    rw [htake] at hsec
    cases dash with
    | false =>
      simp only [sections_to_string, parse_sections, if_false, Bool.false_eq_true,
        List.nil_append, List.append_assoc, hsec,
        parse_sections_to_string ns (bs.drop n) true rest hdrop, Option.map_some,
        List.take_append_drop]
    | true =>
      simp only [sections_to_string, parse_sections, if_true, List.cons_append,
        List.nil_append, List.append_assoc, peek_cons, List.tail_cons, hsec,
        parse_sections_to_string ns (bs.drop n) true rest hdrop, Option.map_some,
        List.take_append_drop]

/-- **The text of a SID parses back to it**, whatever follows the 36 characters. -/
theorem Uuid.parse_to_string (u : Uuid) (rest : List Char) :
    Uuid.parse (u.to_string ++ rest) = some u := by
  have h := parse_sections_to_string bytes_per_section u.bytes false rest
    (by rw [u.length_bytes]; rfl)
  simp only [Uuid.parse, Uuid.to_string, h, u.length_bytes, dif_pos]

theorem length_flatMap_hex_digits :
    ∀ bs : List UInt8, (bs.flatMap hex_digits).length = 2 * bs.length
  | [] => rfl
  | b :: bs => by
    rw [List.flatMap_cons, List.length_append, length_flatMap_hex_digits bs]
    simp only [hex_digits, List.length_cons, List.length_nil]
    omega

theorem sections_to_string_length :
    ∀ (ns : List Nat) (bs : List UInt8) (dash : Bool), bs.length = ns.sum →
      (sections_to_string ns bs dash).length =
        2 * ns.sum + (if dash then ns.length else ns.length - 1)
  | [], _, dash, _ => by cases dash <;> simp [sections_to_string]
  | n :: ns, bs, dash, h => by
    have hdrop : (bs.drop n).length = ns.sum := by
      simp only [List.length_drop, List.sum_cons] at h ⊢
      omega
    have htake : (bs.take n).length = n := by
      simp only [List.length_take, List.sum_cons] at h ⊢
      omega
    simp only [sections_to_string, List.length_append, length_flatMap_hex_digits, htake,
      sections_to_string_length ns (bs.drop n) true hdrop, List.sum_cons, List.length_cons,
      if_true]
    cases dash <;> simp <;> omega

/-- `Uuid::to_string` writes `TEXT_LENGTH` characters. -/
theorem Uuid.to_string_length (u : Uuid) : u.to_string.length = TEXT_LENGTH := by
  rw [Uuid.to_string, sections_to_string_length _ _ _ (by rw [u.length_bytes]; rfl)]
  rfl

theorem byte_to_hex_mem (d : Nat) : byte_to_hex d ∈ "0123456789abcdef".toList := by
  unfold byte_to_hex
  rw [List.getD_eq_getElem?_getD]
  cases h : "0123456789abcdef".toList[d]? with
  | none => decide
  | some c => exact List.mem_of_getElem? h

/-- The text of a SID begins with a hexadecimal digit. -/
theorem Uuid.to_string_head (u : Uuid) :
    ∃ c, u.to_string.head? = some c ∧ c ∈ "0123456789abcdef".toList := by
  obtain ⟨bs, hlen⟩ := u
  match bs, hlen with
  | b :: bs, _ =>
    refine ⟨byte_to_hex (b.toNat >>> 4), ?_, byte_to_hex_mem _⟩
    simp [Uuid.to_string, bytes_per_section, sections_to_string, hex_digits]

/-! ## `Sid_map` -/

/-- `Sid_map`: SIDNO `i + 1` names `sids[i]` (`_sidno_to_sid`), and `sorted` lists the
    SIDNOs in SID order (`_sorted`). The hash `_sid_to_sidno` is the inverse of
    `sids`, so it is not kept separately. -/
structure Sid_map where
  sids : List Uuid
  sorted : List Nat

/-- An empty `Sid_map`. -/
def Sid_map.empty : Sid_map := ⟨[], []⟩

/-- `Sid_map::get_max_sidno`. -/
def Sid_map.get_max_sidno (m : Sid_map) : Nat := m.sids.length

/-- The all-zero SID, the value of an unused slot. -/
def Uuid.zero : Uuid := ⟨List.replicate 16 0, by simp⟩

/-- `Sid_map::sidno_to_sid`; the callers pass a SIDNO of the map. -/
def Sid_map.sidno_to_sid (m : Sid_map) (sidno : Nat) : Uuid := m.sids.getD (sidno - 1) Uuid.zero

/-- `Sid_map::get_sorted_sidno`. -/
def Sid_map.get_sorted_sidno (m : Sid_map) (i : Nat) : Nat := m.sorted.getD i 0

/-- The loop of `add_node` that bubbles the new SIDNO down `_sorted` from its end, read
    on the reversed array: it stops at the first SIDNO whose SID is not greater. -/
def Sid_map.bubble (m : Sid_map) (sid : Uuid) (sidno : Nat) : List Nat → List Nat
  | [] => [sidno]
  | x :: xs =>
    if memcmp sid.bytes (m.sidno_to_sid x).bytes ≠ .lt then sidno :: x :: xs
    else x :: m.bubble sid sidno xs

/-- `Sid_map::add_sid`: the SIDNO of `sid`, which `add_node` first appends when the
    map does not hold it yet. -/
def Sid_map.add_sid (m : Sid_map) (sid : Uuid) : Sid_map × Nat :=
  match m.sids.idxOf? sid with
  | some i => (m, i + 1)
  | none =>
    let sidno := m.get_max_sidno + 1
    (⟨m.sids ++ [sid], (m.bubble sid sidno m.sorted.reverse).reverse⟩, sidno)

/-- The invariant of a `Sid_map` built by `add_sid`: distinct SIDs, and `_sorted` a
    permutation of the SIDNOs. -/
structure Sid_map.WF (m : Sid_map) : Prop where
  nodup : m.sids.Nodup
  sorted_perm : m.sorted.Perm (List.range' 1 m.sids.length)

theorem Sid_map.wf_empty : Sid_map.empty.WF := ⟨List.nodup_nil, by simp [Sid_map.empty]⟩

theorem Sid_map.bubble_perm (m : Sid_map) (sid : Uuid) (sidno : Nat) :
    ∀ l : List Nat, (m.bubble sid sidno l).Perm (sidno :: l)
  | [] => List.Perm.refl _
  | x :: xs => by
    unfold bubble
    split
    · exact List.Perm.refl _
    · exact ((bubble_perm m sid sidno xs).cons x).trans (List.Perm.swap sidno x xs)

theorem Sid_map.add_sid_wf {m : Sid_map} (hm : m.WF) (sid : Uuid) : (m.add_sid sid).1.WF := by
  unfold add_sid
  split
  · exact hm
  · rename_i hnone
    have hnot : sid ∉ m.sids := List.idxOf?_eq_none_iff.mp hnone
    refine ⟨List.nodup_append.mpr ⟨hm.nodup, List.nodup_singleton sid, ?_⟩, ?_⟩
    · intro a ha b hb
      rw [List.mem_singleton] at hb
      rintro rfl
      exact hnot (hb ▸ ha)
    · have hp := (m.bubble_perm sid (m.get_max_sidno + 1) m.sorted.reverse).trans
        ((List.reverse_perm m.sorted).cons _)
      have hr : List.range' 1 (m.sids ++ [sid]).length =
          List.range' 1 m.sids.length ++ [m.get_max_sidno + 1] := by
        rw [List.length_append, List.length_singleton, List.range'_concat]
        simp [get_max_sidno, Nat.add_comm]
      rw [hr]
      exact (List.reverse_perm _).trans (hp.trans ((hm.sorted_perm.cons _).trans
        (List.perm_append_singleton _ _).symm))

/-- `add_sid` only ever appends to the map. -/
theorem Sid_map.add_sid_sids (m : Sid_map) (sid : Uuid) :
    ∃ extra, (m.add_sid sid).1.sids = m.sids ++ extra := by
  unfold add_sid
  split
  · exact ⟨[], by simp⟩
  · exact ⟨[sid], rfl⟩

/-- The SIDNO `add_sid` returns names `sid` in the map it returns. -/
theorem Sid_map.add_sid_get (m : Sid_map) (sid : Uuid) :
    1 ≤ (m.add_sid sid).2 ∧ (m.add_sid sid).2 ≤ (m.add_sid sid).1.get_max_sidno ∧
      (m.add_sid sid).1.sids[(m.add_sid sid).2 - 1]? = some sid := by
  unfold add_sid
  split
  · rename_i i hi
    obtain ⟨hlt, hget, -⟩ := List.idxOf?_eq_some_iff.mp hi
    refine ⟨by omega, by simp only [get_max_sidno]; omega, ?_⟩
    simpa using List.getElem?_eq_some_iff.mpr ⟨hlt, hget⟩
  · simp [get_max_sidno]

/-- **Adding a SID the map already holds** returns its SIDNO and changes nothing. -/
theorem Sid_map.add_sid_of_get {m : Sid_map} (hm : m.WF) {i : Nat} {sid : Uuid}
    (hi : m.sids[i]? = some sid) : m.add_sid sid = (m, i + 1) := by
  obtain ⟨hlt, hget⟩ := List.getElem?_eq_some_iff.mp hi
  have hidx : m.sids.idxOf? sid = some i := by
    rw [List.idxOf?_eq_some_iff]
    refine ⟨hlt, hget, fun j hj he => ?_⟩
    have := (List.Nodup.getElem_inj_iff hm.nodup (i := j) (j := i)).mp (he.trans hget.symm)
    omega
  simp only [add_sid, hidx]

/-- In a well-formed map, `add_sid` of the SID of a SIDNO returns that SIDNO. -/
theorem Sid_map.add_sid_sidno_to_sid {m : Sid_map} (hm : m.WF) {j : Nat} (h₁ : 1 ≤ j)
    (h₂ : j ≤ m.get_max_sidno) : m.add_sid (m.sidno_to_sid j) = (m, j) := by
  have hlt : j - 1 < m.sids.length := by
    simp only [get_max_sidno] at h₂
    omega
  have hget : m.sids[j - 1]? = some (m.sidno_to_sid j) := by
    simp [sidno_to_sid, List.getD_eq_getElem?_getD, List.getElem?_eq_getElem hlt]
  rw [add_sid_of_get hm hget, Nat.sub_add_cancel h₁]

/-! ### Maps that grow by `add_sid` -/

/-- `m'` is `m` after some `add_sid` calls: well formed when `m` is, and holding every
    SID of `m` under its SIDNO. -/
structure Sid_map.Grows (m m' : Sid_map) : Prop where
  wf : m.WF → m'.WF
  initial : m.sids <+: m'.sids

namespace Sid_map.Grows

@[refl] theorem refl (m : Sid_map) : m.Grows m := ⟨id, [], List.append_nil _⟩

theorem trans {m m' m'' : Sid_map} (h₁ : m.Grows m') (h₂ : m'.Grows m'') : m.Grows m'' :=
  ⟨h₂.wf ∘ h₁.wf, h₁.initial.trans h₂.initial⟩

theorem max_le {m m' : Sid_map} (h : m.Grows m') : m.get_max_sidno ≤ m'.get_max_sidno :=
  h.initial.length_le

end Sid_map.Grows

theorem Sid_map.grows_add_sid (m : Sid_map) (sid : Uuid) : m.Grows (m.add_sid sid).1 := by
  obtain ⟨extra, he⟩ := m.add_sid_sids sid
  exact ⟨fun hm => m.add_sid_wf hm sid, extra, he.symm⟩

/-- **Adding a SID again**, to a well-formed map that grew from the one it was first
    added to, returns the SIDNO it got then and changes nothing. -/
theorem Sid_map.add_sid_of_grows {m M : Sid_map} (hM : M.WF) {sid : Uuid}
    (h : (m.add_sid sid).1.Grows M) : M.add_sid sid = (M, (m.add_sid sid).2) := by
  obtain ⟨h₁, -, hget⟩ := m.add_sid_get sid
  obtain ⟨extra, he⟩ := h.initial
  have hlt := (List.getElem?_eq_some_iff.mp hget).1
  have hM' : M.sids[(m.add_sid sid).2 - 1]? = some sid := by
    rw [← he, List.getElem?_append_left hlt, hget]
  rw [add_sid_of_get hM hM', Nat.sub_add_cancel h₁]

end Gtid
end AliSql
