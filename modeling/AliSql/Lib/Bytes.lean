import Mathlib

/-!
# Little-endian bytes in memory

A byte buffer handed to a decoder is a pointer and a length; what lies past the
length is memory too, and a decoder that reads too far reads it. So a memory here is
a total function from addresses to bytes, `Memory := Nat → UInt8`, and a buffer is a
list of bytes that a memory *holds* at an address (`Holds`). A decoder's result on a
memory that holds a buffer then says what it reads, and whether it depends only on
the buffer says whether it stays inside it.

Numbers are stored little-endian in a fixed number of bytes: `split w n` writes the
`w` low bytes of `n`, `combine` reads them back. What is proved:

* `length_split`, `combine_split` (`combine (split w n) = n % 256 ^ w`) and the bound
  `combine_lt`;
* `read_add` and `holds_append`: a buffer made of two parts is held when each part is
  held at its own address;
* `load_of_holds`: loading `w` bytes where a memory holds `split w n` gives
  `n % 256 ^ w`, and `n` itself in front of a buffer when it fits
  (`load_of_holds_split_append`).
-/

set_option autoImplicit false

namespace Bytes

/-- The `w` low bytes of `n`, lowest first. -/
def split : Nat → Nat → List UInt8
  | 0, _ => []
  | w + 1, n => UInt8.ofNat n :: split w (n / 256)

/-- The number whose little-endian bytes are `bs`. -/
def combine : List UInt8 → Nat
  | [] => 0
  | b :: bs => b.toNat + 256 * combine bs

@[simp] theorem length_split : ∀ w n, (split w n).length = w
  | 0, _ => rfl
  | w + 1, n => by rw [split, List.length_cons, length_split w]

theorem combine_split : ∀ w n, combine (split w n) = n % 256 ^ w
  | 0, n => by simp [split, combine, Nat.mod_one]
  | w + 1, n => by
    have hb : (UInt8.ofNat n).toNat = n % 256 := by simp
    rw [split, combine, combine_split w, hb, Nat.pow_succ, Nat.mul_comm _ 256, Nat.mod_mul]

theorem combine_lt : ∀ bs : List UInt8, combine bs < 256 ^ bs.length
  | [] => by simp [combine]
  | b :: bs => by
    have hb := b.toNat_lt
    have ih := combine_lt bs
    rw [combine, List.length_cons, Nat.pow_succ]
    change b.toNat < 256 at hb
    omega

/-- A memory: the byte at every address. -/
abbrev Memory := Nat → UInt8

/-- The `n` bytes at address `p`. -/
def read (mem : Memory) (p n : Nat) : List UInt8 := (List.range n).map fun i => mem (p + i)

/-- The number stored little-endian in the `w` bytes at `p`. -/
def load (mem : Memory) (p w : Nat) : Nat := combine (read mem p w)

/-- The memory holds the buffer `bs` at address `p`. -/
def Holds (mem : Memory) (p : Nat) (bs : List UInt8) : Prop := read mem p bs.length = bs

@[simp] theorem length_read (mem : Memory) (p n : Nat) : (read mem p n).length = n := by
  simp [read]

theorem read_add (mem : Memory) (p a b : Nat) :
    read mem p (a + b) = read mem p a ++ read mem (p + a) b := by
  simp only [read, List.range_add, List.map_append, List.map_map]
  congr 1
  apply List.map_congr_left
  intro i _
  simp [Nat.add_assoc]

theorem holds_append {mem : Memory} {p : Nat} {a b : List UInt8} :
    Holds mem p (a ++ b) ↔ Holds mem p a ∧ Holds mem (p + a.length) b := by
  unfold Holds
  rw [List.length_append, read_add]
  constructor
  · intro h
    exact List.append_inj h (by simp)
  · rintro ⟨ha, hb⟩
    rw [ha, hb]

theorem load_of_holds {mem : Memory} {p : Nat} {bs : List UInt8} (h : Holds mem p bs) :
    load mem p bs.length = combine bs := by
  unfold load
  rw [h]

theorem load_lt (mem : Memory) (p w : Nat) : load mem p w < 256 ^ w := by
  simpa [load] using combine_lt (read mem p w)

theorem load_of_holds_split {mem : Memory} {p w n : Nat} (h : Holds mem p (split w n)) :
    load mem p w = n % 256 ^ w := by
  have := load_of_holds h
  rwa [length_split, combine_split] at this

/-- A length of `w` bytes in front of a buffer: loading it gives the length back when it fits. -/
theorem load_of_holds_split_append {mem : Memory} {p w n : Nat} {data : List UInt8}
    (h : Holds mem p (split w n ++ data)) (hn : n < 256 ^ w) : load mem p w = n := by
  rw [load_of_holds_split (holds_append.mp h).1, Nat.mod_eq_of_lt hn]

theorem load_one (mem : Memory) (p : Nat) : load mem p 1 = (mem p).toNat := by
  simp [load, read, combine]

theorem holds_cons {mem : Memory} {p : Nat} {b : UInt8} {bs : List UInt8} :
    Holds mem p (b :: bs) ↔ mem p = b ∧ Holds mem (p + 1) bs := by
  rw [← List.singleton_append, holds_append]
  simp [Holds, read]

/-- The memory that holds `bs` from address 0, and zeros past it. -/
theorem holds_getD (bs : List UInt8) : Holds (fun a => bs.getD a 0) 0 bs := by
  unfold Holds read
  apply List.ext_getElem
  · simp
  · intro i _ hi
    simp [List.getElem?_eq_getElem hi]

/-- A mask shifted left selects the bits of the number shifted right. -/
theorem and_shiftLeft (x m k : Nat) : x &&& (m <<< k) = ((x >>> k) &&& m) <<< k := by
  apply Nat.eq_of_testBit_eq
  intro i
  simp only [Nat.testBit_and, Nat.testBit_shiftLeft, Nat.testBit_shiftRight]
  by_cases hi : k ≤ i
  · simp [hi, Nat.add_sub_cancel' hi]
  · simp [hi]

/-- An `or` with a number below the low zero bits of the other is a sum. -/
theorem or_eq_add_of_dvd {x y k : Nat} (hx : 2 ^ k ∣ x) (hy : y < 2 ^ k) : x ||| y = x + y := by
  obtain ⟨q, rfl⟩ := hx
  exact (Nat.two_pow_add_eq_or_of_lt hy q).symm

end Bytes
