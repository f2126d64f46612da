import Mathlib

/-!
# Base64 (`mysys/base64.c`)

`base64_encode` writes four characters of the RFC 4648 alphabet for every three bytes,
with `=` for the bytes a last group lacks, a newline before a group when 76 characters
stand on the line, and a terminating NUL. `base64_decode` reads such text back through
`MY_BASE64_DECODER`: white space is skipped between characters, `=` is taken only in the
last two places of a group, decoding stops after the first group with padding, and any
character left over that is not white space is an error.

The text is a list of bytes (a C `char` is one). The decoder holds the input from
`decoder->src` to `decoder->end` as the list of bytes still to read; the bytes `dst`
holds are a list with the write position `d` in it.

`rfc4648_encode` and `wrap_lines` say what the encoder is for, and `base64_encode_eq`
proves that the loop computes them. `base64_decode_encode` follows the decoder group by
group through the encoder's text (`decode_loop_encode`): it reads the text to its end,
writes the input bytes and the zero bytes of the padding, and returns their number cast
to `int`. `base64_round_trip` is the round trip for inputs below `2^31` bytes, and
`base64_decode_two_gib` the input of `2^31` bytes whose length the cast turns negative.
-/

set_option autoImplicit false

namespace AliSql

/-! ## Lines of a fixed width -/

/-- A separator before every element that finds `w` elements on its line; `col` is the
    number of elements on the line so far. -/
def wrap_from {α : Type} (sep : α) (w : Nat) : Nat → List α → List α
  | _, [] => []
  | col, x :: xs => if col = w then sep :: x :: wrap_from sep w 1 xs
    else x :: wrap_from sep w (col + 1) xs

theorem wrap_from_cons {α : Type} (sep : α) (w col : Nat) (x : α) (xs : List α) :
    wrap_from sep w col (x :: xs) =
      if col = w then sep :: x :: wrap_from sep w 1 xs else x :: wrap_from sep w (col + 1) xs :=
  rfl

/-- One separator for every `w` elements past the first line's room. -/
theorem length_wrap_from {α : Type} (sep : α) {w : Nat} (hw : 0 < w) (xs : List α) :
    ∀ col, col ≤ w → (wrap_from sep w col xs).length = xs.length + (col + xs.length - 1) / w := by
  induction xs with
  | nil =>
    intro col hcol
    simp only [wrap_from, List.length_nil, Nat.zero_add]
    exact (Nat.div_eq_of_lt (by omega)).symm
  | cons x xs ih =>
    intro col hcol
    rw [wrap_from_cons]
    by_cases hc : col = w
    · -- a separator, and `x` starts a new line
      subst hc
      rw [if_pos rfl, List.length_cons, List.length_cons, ih 1 hw, List.length_cons]
      have : col + (xs.length + 1) - 1 = (1 + xs.length - 1) + col := by omega
      rw [this, Nat.add_div_right _ hw]
      omega
    · rw [if_neg hc, List.length_cons, ih (col + 1) (by omega), List.length_cons]
      have : col + 1 + xs.length - 1 = col + (xs.length + 1) - 1 := by omega
      rw [this]
      omega

/-- Four elements that fit on the line, or start a new one. -/
theorem wrap_from_four {α : Type} (sep : α) {w col : Nat} (h : col + 3 < w ∨ (col = w ∧ 3 < w))
    (x0 x1 x2 x3 : α) (rest : List α) :
    wrap_from sep w col (x0 :: x1 :: x2 :: x3 :: rest) =
      (if col = w then [sep] else []) ++
        x0 :: x1 :: x2 :: x3 :: wrap_from sep w ((if col = w then 0 else col) + 4) rest := by
  rcases h with h | ⟨rfl, h⟩
  · have h0 : col ≠ w := by omega
    simp only [wrap_from_cons, if_neg h0, if_neg (show col + 1 ≠ w by omega),
      if_neg (show col + 1 + 1 ≠ w by omega), if_neg (show col + 1 + 1 + 1 ≠ w by omega),
      List.nil_append]
  · simp only [wrap_from_cons, if_neg (show 1 ≠ col by omega),
      if_neg (show 1 + 1 ≠ col by omega), if_neg (show 1 + 1 + 1 ≠ col by omega), if_true,
      List.singleton_append, Nat.zero_add]

/-- `xs` on lines of `w` elements. -/
def wrap_lines {α : Type} (sep : α) (w : Nat) (xs : List α) : List α := wrap_from sep w 0 xs

/-! ## The alphabet -/

/-- `base64_table`: RFC 4648 §4. -/
def base64_table : List Char :=
  ['A', 'B', 'C', 'D', 'E', 'F', 'G', 'H', 'I', 'J', 'K', 'L', 'M',
   'N', 'O', 'P', 'Q', 'R', 'S', 'T', 'U', 'V', 'W', 'X', 'Y', 'Z',
   'a', 'b', 'c', 'd', 'e', 'f', 'g', 'h', 'i', 'j', 'k', 'l', 'm',
   'n', 'o', 'p', 'q', 'r', 's', 't', 'u', 'v', 'w', 'x', 'y', 'z',
   '0', '1', '2', '3', '4', '5', '6', '7', '8', '9', '+', '/']

/-- `base64_table[i]` as the byte written. -/
def base64_char (i : Nat) : UInt8 := (base64_table.getD i 'A').toUInt8

/-- `from_base64_table`: `-2` for white space, `-1` for a byte outside the alphabet. -/
def from_base64_table : List Int :=
  [-1,-1,-1,-1,-1,-1,-1,-1,-1,-2,-2,-2,-2,-2,-1,-1,
   -1,-1,-1,-1,-1,-1,-1,-1,-1,-1,-1,-1,-1,-1,-1,-1,
   -2,-1,-1,-1,-1,-1,-1,-1,-1,-1,-1,62,-1,-1,-1,63,
   52,53,54,55,56,57,58,59,60,61,-1,-1,-1,-1,-1,-1,
   -1, 0, 1, 2, 3, 4, 5, 6, 7, 8, 9,10,11,12,13,14,
   15,16,17,18,19,20,21,22,23,24,25,-1,-1,-1,-1,-1,
   -1,26,27,28,29,30,31,32,33,34,35,36,37,38,39,40,
   41,42,43,44,45,46,47,48,49,50,51,-1,-1,-1,-1,-1,
   -1,-1,-1,-1,-1,-1,-1,-1,-1,-1,-1,-1,-1,-1,-1,-1,
   -1,-1,-1,-1,-1,-1,-1,-1,-1,-1,-1,-1,-1,-1,-1,-1,
   -2,-1,-1,-1,-1,-1,-1,-1,-1,-1,-1,-1,-1,-1,-1,-1,
   -1,-1,-1,-1,-1,-1,-1,-1,-1,-1,-1,-1,-1,-1,-1,-1,
   -1,-1,-1,-1,-1,-1,-1,-1,-1,-1,-1,-1,-1,-1,-1,-1,
   -1,-1,-1,-1,-1,-1,-1,-1,-1,-1,-1,-1,-1,-1,-1,-1,
   -1,-1,-1,-1,-1,-1,-1,-1,-1,-1,-1,-1,-1,-1,-1,-1,
   -1,-1,-1,-1,-1,-1,-1,-1,-1,-1,-1,-1,-1,-1,-1,-1]

/-- `from_base64_table[(uchar) ch]`. -/
def from_base64 (ch : UInt8) : Int := from_base64_table.getD ch.toNat (-1)

theorem from_base64_base64_char : ∀ i < 64, from_base64 (base64_char i) = i := by
  decide

theorem from_base64_newline : from_base64 '\n'.toUInt8 = -2 := by decide

theorem from_base64_pad : from_base64 '='.toUInt8 = -1 := by decide

theorem base64_char_ne_nul : ∀ i < 64, base64_char i ≠ 0 := by
  decide

/-! ## `base64_encode` -/

/-- `uint64` arithmetic. -/
def u64 (x : Nat) : Nat := x % 2 ^ 64

theorem u64_of_lt {x : Nat} (h : x < 2 ^ 64) : u64 x = x := Nat.mod_eq_of_lt h

/-- Adding `2^64 - 1` in `uint64` takes one off. -/
theorem u64_add_pred {x : Nat} (h0 : 0 < x) (h : x < 2 ^ 64) : u64 (x + (2 ^ 64 - 1)) = x - 1 := by
  have : x + (2 ^ 64 - 1) = (x - 1) + 2 ^ 64 := by omega
  rw [u64, this, Nat.add_mod_right, Nat.mod_eq_of_lt (by omega)]

/-- `base64_needed_encoded_length(length_of_data)`, in `uint64`. -/
def base64_needed_encoded_length (length_of_data : Nat) : Nat :=
  if length_of_data = 0 then 1
  else
    let nb_base64_chars := u64 (u64 (length_of_data + 2) / 3 * 4)
    -- base64 chars incl padding, newlines, NUL termination of string
    u64 (nb_base64_chars + u64 (nb_base64_chars + (2 ^ 64 - 1)) / 76 + 1)

/-- `base64_needed_decoded_length(length_of_encoded_data)`: `ceil` of the `uint64`
    quotient, which is that quotient. -/
def base64_needed_decoded_length (length_of_encoded_data : Nat) : Nat :=
  u64 (length_of_encoded_data * 3) / 4

/-- The four characters of one pass of the loop of `base64_encode`, from the bytes
    `s[i]`, `s[i+1]` and `s[i+2]`; the last two are `none` past `src_len`. -/
def base64_encode.group (b0 : UInt8) (b1 b2 : Option UInt8) : List UInt8 :=
  -- c= s[i++]; c <<= 8; if (i < src_len) c += s[i]; c <<= 8; i++; if (i < src_len) c += s[i]
  let c : Nat := (b0.toNat * 2 ^ 8 + (b1.getD 0).toNat) * 2 ^ 8 + (b2.getD 0).toNat
  [base64_char (c / 2 ^ 18 % 64), base64_char (c / 2 ^ 12 % 64),
    -- if (i > (src_len + 1)) '=', and if (i > src_len) '='
    if b1.isNone then '='.toUInt8 else base64_char (c / 2 ^ 6 % 64),
    if b2.isNone then '='.toUInt8 else base64_char (c % 64)]

/-- The loop of `base64_encode` over the bytes from `s[i]` on; `len` is the number of
    characters on the line. -/
def base64_encode.loop : List UInt8 → Nat → List UInt8
  | [], _ => []
  | b0 :: rest, len =>
    -- if (len == 76) { len= 0; *dst++= '\n'; }
    let nl : List UInt8 := if len = 76 then ['\n'.toUInt8] else []
    let len := if len = 76 then 0 else len
    match rest with
    | [] => nl ++ group b0 none none
    | [b1] => nl ++ group b0 (some b1) none
    | b1 :: b2 :: rest => nl ++ group b0 (some b1) (some b2) ++ loop rest (len + 4)

/-- `base64_encode(src, src_len, dst)`: the bytes written to `dst`, the NUL included. -/
def base64_encode (src : List UInt8) : List UInt8 := base64_encode.loop src 0 ++ [0]

/-- `strlen` of a byte string. -/
def strlen (s : List UInt8) : Nat := (s.takeWhile (· != 0)).length

/-- RFC 4648 §4 with `=` padding: the six-bit groups of every three bytes. -/
def rfc4648_encode : List UInt8 → List UInt8
  | [] => []
  | [a] => [base64_char (a.toNat / 4), base64_char (a.toNat % 4 * 16), '='.toUInt8, '='.toUInt8]
  | [a, b] =>
    [base64_char (a.toNat / 4), base64_char (a.toNat % 4 * 16 + b.toNat / 16),
      base64_char (b.toNat % 16 * 4), '='.toUInt8]
  | a :: b :: c :: rest =>
    [base64_char (a.toNat / 4), base64_char (a.toNat % 4 * 16 + b.toNat / 16),
      base64_char (b.toNat % 16 * 4 + c.toNat / 64), base64_char (c.toNat % 64)] ++
      rfc4648_encode rest

/-! ### The loop computes the RFC 4648 text on lines of 76 -/

theorem group_eq_one (a : UInt8) : base64_encode.group a none none = rfc4648_encode [a] := by
  have ha := a.toNat_lt
  have h0 : a.toNat * 2 ^ 8 * 2 ^ 8 / 2 ^ 18 % 64 = a.toNat / 4 := by omega
  have h1 : a.toNat * 2 ^ 8 * 2 ^ 8 / 2 ^ 12 % 64 = a.toNat % 4 * 16 := by omega
  simp only [base64_encode.group, rfc4648_encode, Option.getD_none, UInt8.toNat_zero,
    Nat.add_zero, Option.isNone_none, ↓reduceIte, h0, h1]

theorem group_eq_two (a b : UInt8) :
    base64_encode.group a (some b) none = rfc4648_encode [a, b] := by
  have ha := a.toNat_lt
  have hb := b.toNat_lt
  have h0 : (a.toNat * 2 ^ 8 + b.toNat) * 2 ^ 8 / 2 ^ 18 % 64 = a.toNat / 4 := by omega
  have h1 : (a.toNat * 2 ^ 8 + b.toNat) * 2 ^ 8 / 2 ^ 12 % 64 = a.toNat % 4 * 16 + b.toNat / 16 := by
    omega
  have h2 : (a.toNat * 2 ^ 8 + b.toNat) * 2 ^ 8 / 2 ^ 6 % 64 = b.toNat % 16 * 4 := by omega
  simp only [base64_encode.group, rfc4648_encode, Option.getD_none, Option.getD_some,
    UInt8.toNat_zero, Nat.add_zero, Option.isNone_none, Option.isNone_some, Bool.false_eq_true,
    ↓reduceIte, h0, h1, h2]

theorem group_eq_three (a b c : UInt8) (rest : List UInt8) :
    base64_encode.group a (some b) (some c) ++ rfc4648_encode rest =
      rfc4648_encode (a :: b :: c :: rest) := by
  have ha := a.toNat_lt
  have hb := b.toNat_lt
  have hc := c.toNat_lt
  have h0 : ((a.toNat * 2 ^ 8 + b.toNat) * 2 ^ 8 + c.toNat) / 2 ^ 18 % 64 = a.toNat / 4 := by omega
  have h1 : ((a.toNat * 2 ^ 8 + b.toNat) * 2 ^ 8 + c.toNat) / 2 ^ 12 % 64 =
      a.toNat % 4 * 16 + b.toNat / 16 := by omega
  have h2 : ((a.toNat * 2 ^ 8 + b.toNat) * 2 ^ 8 + c.toNat) / 2 ^ 6 % 64 =
      b.toNat % 16 * 4 + c.toNat / 64 := by omega
  have h3 : ((a.toNat * 2 ^ 8 + b.toNat) * 2 ^ 8 + c.toNat) % 64 = c.toNat % 64 := by omega
  simp only [base64_encode.group, rfc4648_encode, Option.getD_some, Option.isNone_some,
    Bool.false_eq_true, ↓reduceIte, h0, h1, h2, h3, List.cons_append, List.nil_append]

/-- A group on lines of 76: a newline first when the line is full. -/
theorem wrap_group (b0 : UInt8) (b1 b2 : Option UInt8) (rest : List UInt8) {len : Nat}
    (h4 : len % 4 = 0) (h76 : len ≤ 76) :
    wrap_from '\n'.toUInt8 76 len (base64_encode.group b0 b1 b2 ++ rest) =
      (if len = 76 then ['\n'.toUInt8] else []) ++ base64_encode.group b0 b1 b2 ++
        wrap_from '\n'.toUInt8 76 ((if len = 76 then 0 else len) + 4) rest :=
  by
    rw [List.append_assoc]
    unfold base64_encode.group
    exact wrap_from_four _ (by omega) _ _ _ _ rest

/-- The loop writes the RFC 4648 text of the bytes left, wrapped from column `len`. -/
theorem loop_eq_wrap : ∀ (s : List UInt8) (len : Nat), len % 4 = 0 → len ≤ 76 →
    base64_encode.loop s len = wrap_from '\n'.toUInt8 76 len (rfc4648_encode s)
  | [], _, _, _ => rfl
  | [a], len, h4, h76 => by
    rw [← group_eq_one, ← List.append_nil (base64_encode.group a none none), wrap_group _ _ _ _ h4 h76]
    simp [base64_encode.loop, wrap_from]
  | [a, b], len, h4, h76 => by
    rw [← group_eq_two, ← List.append_nil (base64_encode.group a (some b) none),
      wrap_group _ _ _ _ h4 h76]
    simp [base64_encode.loop, wrap_from]
  | a :: b :: c :: rest, len, h4, h76 => by
    -- the line goes on from column `len + 4`, or from 4 after a newline
    have h4' : ((if len = 76 then 0 else len) + 4) % 4 = 0 := by split <;> omega
    have h76' : (if len = 76 then 0 else len) + 4 ≤ 76 := by split <;> omega
    have ih := loop_eq_wrap rest _ h4' h76'
    rw [← group_eq_three, wrap_group _ _ _ _ h4 h76, ← ih]
    simp only [base64_encode.loop, List.append_assoc]

theorem base64_encode_eq (s : List UInt8) :
    base64_encode s = wrap_lines '\n'.toUInt8 76 (rfc4648_encode s) ++ [0] := by
  rw [base64_encode, loop_eq_wrap s 0 rfl (by decide), wrap_lines]

example : base64_encode [77, 97, 110] = [84, 87, 70, 117, 0] := by decide

example : base64_encode [77] = [84, 81, 61, 61, 0] := by decide

/-! ## `base64_decode` -/

/-- `MY_BASE64_DECODER`; `src` is the input from `decoder->src` to `decoder->end`. -/
structure MY_BASE64_DECODER where
  src : List UInt8
  c : Nat
  error : Bool
  state : Nat
  mark : Nat
  deriving DecidableEq, Repr

/-- `my_base64_decoder_skip_spaces`: true at the end of the input, an error when a group
    was begun. -/
def my_base64_decoder_skip_spaces (decoder : MY_BASE64_DECODER) : Bool × MY_BASE64_DECODER :=
  match decoder.src.dropWhile (from_base64 · == -2) with
  | [] => (true, { decoder with src := [], error := if decoder.state > 0 then true else decoder.error })
  | src => (false, { decoder with src := src })

/-- `my_base64_add`: the next character's six bits, or an error for a character outside
    the alphabet; `c` is a `uint`. -/
def my_base64_add (decoder : MY_BASE64_DECODER) : Bool × MY_BASE64_DECODER :=
  let c := decoder.c * 2 ^ 6 % 2 ^ 32
  match decoder.src with
  | [] => (true, { decoder with c := c, error := true })
  | ch :: rest =>
    let res := from_base64 ch
    if res < 0 then (true, { decoder with src := rest, c := c, error := true })
    else (false, { decoder with src := rest, c := c + res.toNat })

/-- `my_base64_decoder_getch`: true on an error or at the end of the input. A character
    that is not taken is left to read (`decoder->src--`). -/
def my_base64_decoder_getch (decoder : MY_BASE64_DECODER) : Bool × MY_BASE64_DECODER :=
  match my_base64_decoder_skip_spaces decoder with
  | (true, decoder) => (true, decoder)
  | (false, decoder) =>
    let prev := decoder.src
    match my_base64_add decoder with
    | (false, decoder) =>
      -- after '=' only '=' is valid
      if decoder.mark ≠ 0 then (true, { decoder with error := true, src := prev })
      else (false, { decoder with state := decoder.state + 1 })
    | (true, decoder) =>
      match decoder.state with
      | 0 | 1 => (true, { decoder with src := prev })
      | 2 | 3 =>
        if prev.headD 0 = '='.toUInt8 then
          (false, { decoder with
            error := false
            mark := decoder.mark + 1
            state := decoder.state + 1 })
        else (true, { decoder with src := prev })
      | _ => (true, decoder)

/-- `my_base64_decoder_getch(&decoder) || ...` with `n` calls. -/
def my_base64_decoder_getch_n : Nat → MY_BASE64_DECODER → Bool × MY_BASE64_DECODER
  | 0, decoder => (false, decoder)
  | n + 1, decoder =>
    match my_base64_decoder_getch decoder with
    | (true, decoder) => (true, decoder)
    | (false, decoder) => my_base64_decoder_getch_n n decoder

/-- `*d= b` where `dst` holds `mem`: past the bytes written, the byte is added. -/
def store (mem : List UInt8) (d : Nat) (b : UInt8) : List UInt8 :=
  if d < mem.length then mem.set d b else mem ++ [b]

/-- The `for (;;)` of `base64_decode`, for `fuel` groups: the decoder, the bytes `dst`
    holds, and `d - dst`. -/
def base64_decode.loop (allow_multiple_chunks : Bool) :
    Nat → MY_BASE64_DECODER → List UInt8 → Nat → MY_BASE64_DECODER × List UInt8 × Nat
  | 0, decoder, mem, d => (decoder, mem, d)
  | fuel + 1, decoder, mem, d =>
    match my_base64_decoder_getch_n 4 { decoder with c := 0, state := 0 } with
    | (true, decoder) => (decoder, mem, d)
    | (false, decoder) =>
      let c := decoder.c
      let mem := store (store (store mem d (UInt8.ofNat (c / 2 ^ 16 % 256)))
        (d + 1) (UInt8.ofNat (c / 2 ^ 8 % 256))) (d + 2) (UInt8.ofNat (c % 256))
      if decoder.mark ≠ 0 then
        if !allow_multiple_chunks then (decoder, mem, d + 3 - decoder.mark)
        else loop allow_multiple_chunks fuel { decoder with mark := 0 } mem (d + 3 - decoder.mark)
      else loop allow_multiple_chunks fuel decoder mem (d + 3)

/-- `base64_decode(src_base, len, dst, &end_ptr, flags)`: the value returned, the bytes
    written to `dst`, and `*end_ptr - src_base`. The loop reads four characters a group,
    so `len + 1` groups are more than it runs. -/
def base64_decode (src_base : List UInt8) (len : Nat) (allow_multiple_chunks : Bool) :
    Int × List UInt8 × Nat :=
  let decoder : MY_BASE64_DECODER := ⟨src_base.take len, 0, false, 0, 0⟩
  let r := base64_decode.loop allow_multiple_chunks (len + 1) decoder [] 0
  -- Return error if there are more non-space characters
  let s := my_base64_decoder_skip_spaces { r.1 with state := 0 }
  let decoder := if !s.1 then { s.2 with error := true } else s.2
  (if decoder.error then -1 else Int.bmod r.2.2 (2 ^ 32), r.2.1, len - decoder.src.length)

/-! ### One character at a time -/

theorem skip_spaces_of_src (decoder : MY_BASE64_DECODER) {ws r : List UInt8} {ch : UInt8}
    (hsrc : decoder.src = ws ++ ch :: r) (hws : ∀ x ∈ ws, from_base64 x = -2)
    (hch : from_base64 ch ≠ -2) :
    my_base64_decoder_skip_spaces decoder = (false, { decoder with src := ch :: r }) := by
  have hdrop : decoder.src.dropWhile (from_base64 · == -2) = ch :: r := by
    rw [hsrc, List.dropWhile_append_of_pos (by simpa using hws),
      List.dropWhile_cons_of_neg (by simpa using hch)]
  simp only [my_base64_decoder_skip_spaces, hdrop]

theorem skip_spaces_of_nil (decoder : MY_BASE64_DECODER) (hsrc : decoder.src = []) :
    my_base64_decoder_skip_spaces decoder =
      (true, { decoder with src := [], error := if decoder.state > 0 then true else decoder.error }) := by
  simp only [my_base64_decoder_skip_spaces, hsrc, List.dropWhile_nil]

/-- White space before a character is skipped. -/
theorem getch_skip (ws r : List UInt8) {ch : UInt8} (c : Nat) (e : Bool) (st m : Nat)
    (hws : ∀ x ∈ ws, from_base64 x = -2) (hch : from_base64 ch ≠ -2) :
    my_base64_decoder_getch ⟨ws ++ ch :: r, c, e, st, m⟩ =
      my_base64_decoder_getch ⟨ch :: r, c, e, st, m⟩ := by
  have h1 := skip_spaces_of_src ⟨ws ++ ch :: r, c, e, st, m⟩ rfl hws hch
  have h2 := skip_spaces_of_src ⟨ch :: r, c, e, st, m⟩ (List.nil_append _).symm
    (by simp) hch
  simp only [my_base64_decoder_getch, h1, h2]

/-- A character of the alphabet adds its six bits. -/
theorem getch_char (r : List UInt8) {i : Nat} (c : Nat) (e : Bool) (st : Nat) (hi : i < 64) :
    my_base64_decoder_getch ⟨base64_char i :: r, c, e, st, 0⟩ =
      (false, ⟨r, c * 2 ^ 6 % 2 ^ 32 + i, e, st + 1, 0⟩) := by
  have hv := from_base64_base64_char i hi
  have hskip := skip_spaces_of_src ⟨base64_char i :: r, c, e, st, 0⟩ (List.nil_append _).symm
    (by simp) (by rw [hv]; omega)
  have hpos : ¬ (i : Int) < 0 := by omega
  simp only [my_base64_decoder_getch, hskip, my_base64_add, hv, hpos, if_false,
    Int.toNat_natCast, ne_eq, not_true_eq_false]

/-- A pad in the third or fourth place of a group counts one mark and adds no bits. -/
theorem getch_pad (r : List UInt8) (c : Nat) (e : Bool) (st m : Nat) (hst : st = 2 ∨ st = 3) :
    my_base64_decoder_getch ⟨'='.toUInt8 :: r, c, e, st, m⟩ =
      (false, ⟨r, c * 2 ^ 6 % 2 ^ 32, false, st + 1, m + 1⟩) := by
  have hskip := skip_spaces_of_src ⟨'='.toUInt8 :: r, c, e, st, m⟩ (List.nil_append _).symm
    (by simp) (by rw [from_base64_pad]; decide)
  have hneg : from_base64 '='.toUInt8 < 0 := by rw [from_base64_pad]; decide
  rcases hst with rfl | rfl <;>
    simp only [my_base64_decoder_getch, hskip, my_base64_add, hneg, if_true, List.headD_cons]

/-- At the end of the input; an error when a group was begun. -/
theorem getch_of_nil (c : Nat) (e : Bool) (st m : Nat) :
    my_base64_decoder_getch ⟨[], c, e, st, m⟩ =
      (true, ⟨[], c, if st > 0 then true else e, st, m⟩) := by
  simp only [my_base64_decoder_getch, skip_spaces_of_nil ⟨[], c, e, st, m⟩ rfl]

/-! ### One group at a time -/

/-- The first character of a group is not white space. -/
theorem from_base64_group_head (a : UInt8) (b1 b2 : Option UInt8) (r : List UInt8) :
    ∃ ch rest, base64_encode.group a b1 b2 ++ r = ch :: rest ∧ from_base64 ch ≠ -2 := by
  refine ⟨_, _, rfl, ?_⟩
  rw [from_base64_base64_char _ (Nat.mod_lt _ (by decide))]
  omega

/-- The four characters of a group of three bytes give back their 24 bits. -/
theorem getch_n_three (nl r : List UInt8) (a b c : UInt8) (e : Bool)
    (hnl : ∀ x ∈ nl, from_base64 x = -2) :
    my_base64_decoder_getch_n 4 ⟨nl ++ base64_encode.group a (some b) (some c) ++ r, 0, e, 0, 0⟩ =
      (false, ⟨r, (a.toNat * 2 ^ 8 + b.toNat) * 2 ^ 8 + c.toNat, e, 4, 0⟩) := by
  obtain ⟨ch, rest, hg, hch⟩ := from_base64_group_head a (some b) (some c) r
  rw [List.append_assoc, hg, my_base64_decoder_getch_n, getch_skip nl rest 0 e 0 0 hnl hch, ← hg]
  have ha := a.toNat_lt
  have hb := b.toNat_lt
  have hc := c.toNat_lt
  simp (disch := omega) only [base64_encode.group, Option.getD_some, Option.isNone_some,
    Bool.false_eq_true, if_false, List.cons_append, List.nil_append, my_base64_decoder_getch_n,
    getch_char, Prod.mk.injEq, MY_BASE64_DECODER.mk.injEq, true_and, and_true]
  omega

/-- Two bytes: three characters and a pad. -/
theorem getch_n_two (nl r : List UInt8) (a b : UInt8) (e : Bool)
    (hnl : ∀ x ∈ nl, from_base64 x = -2) :
    my_base64_decoder_getch_n 4 ⟨nl ++ base64_encode.group a (some b) none ++ r, 0, e, 0, 0⟩ =
      (false, ⟨r, (a.toNat * 2 ^ 8 + b.toNat) * 2 ^ 8, false, 4, 1⟩) := by
  obtain ⟨ch, rest, hg, hch⟩ := from_base64_group_head a (some b) none r
  rw [List.append_assoc, hg, my_base64_decoder_getch_n, getch_skip nl rest 0 e 0 0 hnl hch, ← hg]
  have ha := a.toNat_lt
  have hb := b.toNat_lt
  simp (disch := omega) only [base64_encode.group, Option.getD_some, Option.getD_none,
    Option.isNone_some, Option.isNone_none, Bool.false_eq_true, if_false, if_true,
    UInt8.toNat_zero, List.cons_append, List.nil_append, my_base64_decoder_getch_n, getch_char,
    getch_pad r _ _ 3 0 (.inr rfl)]
  simp only [Prod.mk.injEq, MY_BASE64_DECODER.mk.injEq, true_and, and_true]
  omega

/-- One byte: two characters and two pads. -/
theorem getch_n_one (nl r : List UInt8) (a : UInt8) (e : Bool)
    (hnl : ∀ x ∈ nl, from_base64 x = -2) :
    my_base64_decoder_getch_n 4 ⟨nl ++ base64_encode.group a none none ++ r, 0, e, 0, 0⟩ =
      (false, ⟨r, a.toNat * 2 ^ 8 * 2 ^ 8, false, 4, 2⟩) := by
  obtain ⟨ch, rest, hg, hch⟩ := from_base64_group_head a none none r
  rw [List.append_assoc, hg, my_base64_decoder_getch_n, getch_skip nl rest 0 e 0 0 hnl hch, ← hg]
  have ha := a.toNat_lt
  simp (disch := omega) only [base64_encode.group, Option.getD_none, Option.isNone_none,
    if_true, UInt8.toNat_zero, List.cons_append, List.nil_append, my_base64_decoder_getch_n,
    getch_char, getch_pad _ _ _ 2 0 (.inl rfl), getch_pad r _ _ 3 1 (.inr rfl)]
  simp only [Prod.mk.injEq, MY_BASE64_DECODER.mk.injEq, true_and, and_true]
  omega

/-- The three bytes of a group, written past the bytes `dst` holds. -/
theorem store_three (mem : List UInt8) (x y z : UInt8) :
    store (store (store mem mem.length x) (mem.length + 1) y) (mem.length + 2) z =
      mem ++ [x, y, z] := by
  simp [store]

/-- A group of three bytes: they are written and the loop goes on. -/
theorem loop_three (allow : Bool) (fuel : Nat) (nl r : List UInt8) (a b c : UInt8)
    (c0 : Nat) (e : Bool) (st : Nat) (mem : List UInt8) (hnl : ∀ x ∈ nl, from_base64 x = -2) :
    base64_decode.loop allow (fuel + 1)
        ⟨nl ++ base64_encode.group a (some b) (some c) ++ r, c0, e, st, 0⟩ mem mem.length =
      base64_decode.loop allow fuel ⟨r, (a.toNat * 2 ^ 8 + b.toNat) * 2 ^ 8 + c.toNat, e, 4, 0⟩
        (mem ++ [a, b, c]) (mem.length + 3) := by
  have ha := a.toNat_lt
  have hb := b.toNat_lt
  have hc := c.toNat_lt
  have h0 : ((a.toNat * 2 ^ 8 + b.toNat) * 2 ^ 8 + c.toNat) / 2 ^ 16 % 256 = a.toNat := by omega
  have h1 : ((a.toNat * 2 ^ 8 + b.toNat) * 2 ^ 8 + c.toNat) / 2 ^ 8 % 256 = b.toNat := by omega
  have h2 : ((a.toNat * 2 ^ 8 + b.toNat) * 2 ^ 8 + c.toNat) % 256 = c.toNat := by omega
  simp only [base64_decode.loop, getch_n_three nl r a b c e hnl, h0, h1, h2, UInt8.ofNat_toNat,
    store_three, ne_eq, not_true_eq_false, if_false]

/-- A last group of two bytes: both are written, and the zero byte of the pad. -/
theorem loop_two (allow : Bool) (fuel : Nat) (nl r : List UInt8) (a b : UInt8)
    (c0 : Nat) (e : Bool) (st : Nat) (mem : List UInt8) (hnl : ∀ x ∈ nl, from_base64 x = -2) :
    base64_decode.loop allow (fuel + 1)
        ⟨nl ++ base64_encode.group a (some b) none ++ r, c0, e, st, 0⟩ mem mem.length =
      if !allow then (⟨r, (a.toNat * 2 ^ 8 + b.toNat) * 2 ^ 8, false, 4, 1⟩, mem ++ [a, b, 0],
        mem.length + 2)
      else base64_decode.loop allow fuel ⟨r, (a.toNat * 2 ^ 8 + b.toNat) * 2 ^ 8, false, 4, 0⟩
        (mem ++ [a, b, 0]) (mem.length + 2) := by
  have ha := a.toNat_lt
  have hb := b.toNat_lt
  have h0 : (a.toNat * 2 ^ 8 + b.toNat) * 2 ^ 8 / 2 ^ 16 % 256 = a.toNat := by omega
  have h1 : (a.toNat * 2 ^ 8 + b.toNat) * 2 ^ 8 / 2 ^ 8 % 256 = b.toNat := by omega
  have h2 : (a.toNat * 2 ^ 8 + b.toNat) * 2 ^ 8 % 256 = 0 := by omega
  simp only [base64_decode.loop, getch_n_two nl r a b e hnl, h0, h1, h2, UInt8.ofNat_toNat,
    store_three]
  simp

/-- A last group of one byte: it is written, and the two zero bytes of the pads. -/
theorem loop_one (allow : Bool) (fuel : Nat) (nl r : List UInt8) (a : UInt8)
    (c0 : Nat) (e : Bool) (st : Nat) (mem : List UInt8) (hnl : ∀ x ∈ nl, from_base64 x = -2) :
    base64_decode.loop allow (fuel + 1)
        ⟨nl ++ base64_encode.group a none none ++ r, c0, e, st, 0⟩ mem mem.length =
      if !allow then (⟨r, a.toNat * 2 ^ 8 * 2 ^ 8, false, 4, 2⟩, mem ++ [a, 0, 0], mem.length + 1)
      else base64_decode.loop allow fuel ⟨r, a.toNat * 2 ^ 8 * 2 ^ 8, false, 4, 0⟩
        (mem ++ [a, 0, 0]) (mem.length + 1) := by
  have ha := a.toNat_lt
  have h0 : a.toNat * 2 ^ 8 * 2 ^ 8 / 2 ^ 16 % 256 = a.toNat := by omega
  have h1 : a.toNat * 2 ^ 8 * 2 ^ 8 / 2 ^ 8 % 256 = 0 := by omega
  have h2 : a.toNat * 2 ^ 8 * 2 ^ 8 % 256 = 0 := by omega
  simp only [base64_decode.loop, getch_n_one nl r a e hnl, h0, h1, h2, UInt8.ofNat_toNat,
    store_three]
  simp

/-- At the end of the input the loop stops, and writes nothing. -/
theorem loop_of_nil (allow : Bool) (fuel c : Nat) (e : Bool) (st m : Nat) (mem : List UInt8)
    (d : Nat) :
    ∃ dec, base64_decode.loop allow fuel ⟨[], c, e, st, m⟩ mem d = (dec, mem, d) ∧
      dec.src = [] ∧ dec.error = e := by
  cases fuel with
  | zero => exact ⟨⟨[], c, e, st, m⟩, rfl, rfl, rfl⟩
  | succ fuel =>
    refine ⟨⟨[], 0, e, 0, m⟩, ?_, rfl, rfl⟩
    simp only [base64_decode.loop, my_base64_decoder_getch_n, getch_of_nil, gt_iff_lt,
      Nat.lt_irrefl, if_false]

/-! ### The decoder reads the encoder's text back -/

/-- The newline the loop may write before a group is white space to the decoder. -/
theorem newline_space (len : Nat) :
    ∀ x ∈ (if len = 76 then ['\n'.toUInt8] else []), from_base64 x = -2 := by
  split <;> simp [from_base64_newline]

/-- Group by group over the text `base64_encode.loop` writes from column `len`: the decoder
    reads it to its end without error, writes the bytes and a zero byte for each pad, and
    ends `s.length` bytes on. -/
theorem decode_loop_encode (allow : Bool) :
    ∀ (s : List UInt8) (len fuel c0 st : Nat) (mem : List UInt8),
      len % 4 = 0 → len ≤ 76 → s.length / 3 < fuel →
      ∃ dec, base64_decode.loop allow fuel ⟨base64_encode.loop s len, c0, false, st, 0⟩ mem
          mem.length =
          (dec, mem ++ s ++ List.replicate ((3 - s.length % 3) % 3) 0, mem.length + s.length) ∧
        dec.src = [] ∧ dec.error = false
  | [], _, fuel, c0, st, mem, _, _, _ => by
    obtain ⟨dec, h, hs, he⟩ := loop_of_nil allow fuel c0 false st 0 mem mem.length
    exact ⟨dec, by simpa [base64_encode.loop] using h, hs, he⟩
  | _ :: _, _, 0, _, _, _, _, _, hf => absurd hf (Nat.not_lt_zero _)
  | [a], len, fuel + 1, c0, st, mem, _, _, _ => by
    have hl : base64_encode.loop [a] len =
        (if len = 76 then ['\n'.toUInt8] else []) ++ base64_encode.group a none none ++ [] := by
      simp [base64_encode.loop]
    rw [hl, loop_one allow fuel _ [] a c0 false st mem (newline_space len)]
    cases allow with
    | false => exact ⟨⟨[], a.toNat * 2 ^ 8 * 2 ^ 8, false, 4, 2⟩, by simp, rfl, rfl⟩
    | true =>
      -- with several chunks allowed the loop goes on, and stops at the end of the input
      obtain ⟨dec, h, hs, he⟩ :=
        loop_of_nil true fuel (a.toNat * 2 ^ 8 * 2 ^ 8) false 4 0 (mem ++ [a, 0, 0]) (mem.length + 1)
      exact ⟨dec, by simpa using h, hs, he⟩
  | [a, b], len, fuel + 1, c0, st, mem, _, _, _ => by
    have hl : base64_encode.loop [a, b] len =
        (if len = 76 then ['\n'.toUInt8] else []) ++ base64_encode.group a (some b) none ++ [] := by
      simp [base64_encode.loop]
    rw [hl, loop_two allow fuel _ [] a b c0 false st mem (newline_space len)]
    cases allow with
    | false => exact ⟨⟨[], (a.toNat * 2 ^ 8 + b.toNat) * 2 ^ 8, false, 4, 1⟩, by simp, rfl, rfl⟩
    | true =>
      obtain ⟨dec, h, hs, he⟩ := loop_of_nil true fuel ((a.toNat * 2 ^ 8 + b.toNat) * 2 ^ 8) false
        4 0 (mem ++ [a, b, 0]) (mem.length + 2)
      exact ⟨dec, by simpa using h, hs, he⟩
  | a :: b :: c :: rest, len, fuel + 1, c0, st, mem, _, _, hf => by
    -- the line goes on from column `len + 4`, or from 4 after a newline
    have h4' : ((if len = 76 then 0 else len) + 4) % 4 = 0 := by split <;> omega
    have h76' : (if len = 76 then 0 else len) + 4 ≤ 76 := by split <;> omega
    have hl : base64_encode.loop (a :: b :: c :: rest) len =
        (if len = 76 then ['\n'.toUInt8] else []) ++ base64_encode.group a (some b) (some c) ++
          base64_encode.loop rest ((if len = 76 then 0 else len) + 4) := by
      simp [base64_encode.loop]
    have hf' : rest.length / 3 < fuel := by simp only [List.length_cons] at hf; omega
    obtain ⟨dec, h, hs, he⟩ := decode_loop_encode allow rest _ fuel _ 4 (mem ++ [a, b, c]) h4' h76' hf'
    refine ⟨dec, ?_, hs, he⟩
    have hlen : mem.length + 3 = (mem ++ [a, b, c]).length := by simp
    have hpad : (a :: b :: c :: rest).length % 3 = rest.length % 3 := by simp; omega
    rw [hl, loop_three allow fuel _ _ a b c c0 false st mem (newline_space len), hlen, h, hpad]
    simp only [List.append_assoc, List.cons_append, List.nil_append, List.length_append,
      List.length_cons, List.length_nil, Prod.mk.injEq, true_and]
    omega

/-! ### The round trip -/

theorem mem_wrap_from {α : Type} {sep x : α} {w : Nat} :
    ∀ {col : Nat} {xs : List α}, x ∈ wrap_from sep w col xs → x = sep ∨ x ∈ xs
  | _, [], h => by simp [wrap_from] at h
  | col, y :: ys, h => by
    rw [wrap_from_cons] at h
    split at h
    · rcases List.mem_cons.mp h with rfl | h
      · exact .inl rfl
      · rcases List.mem_cons.mp h with rfl | h
        · exact .inr List.mem_cons_self
        · exact (mem_wrap_from h).imp_right (List.mem_cons_of_mem _)
    · rcases List.mem_cons.mp h with rfl | h
      · exact .inr List.mem_cons_self
      · exact (mem_wrap_from h).imp_right (List.mem_cons_of_mem _)

theorem length_rfc4648_encode : ∀ s : List UInt8,
    (rfc4648_encode s).length = (s.length + 2) / 3 * 4
  | [] => rfl
  | [_] => by simp [rfc4648_encode]
  | [_, _] => by simp [rfc4648_encode]
  | _ :: _ :: _ :: rest => by
    simp only [rfc4648_encode, List.length_append, List.length_cons, List.length_nil,
      length_rfc4648_encode rest]
    omega

/-- The RFC 4648 text has no NUL: every character is of the alphabet or a pad. -/
theorem rfc4648_encode_ne_nul : ∀ (s : List UInt8), ∀ x ∈ rfc4648_encode s, x ≠ 0
  | [], _, h => by simp [rfc4648_encode] at h
  | [a], x, h => by
    have ha := a.toNat_lt
    simp only [rfc4648_encode, List.mem_cons, List.not_mem_nil, or_false] at h
    rcases h with rfl | rfl | rfl | rfl <;>
      first | exact base64_char_ne_nul _ (by omega) | decide
  | [a, b], x, h => by
    have ha := a.toNat_lt
    have hb := b.toNat_lt
    simp only [rfc4648_encode, List.mem_cons, List.not_mem_nil, or_false] at h
    rcases h with rfl | rfl | rfl | rfl <;>
      first | exact base64_char_ne_nul _ (by omega) | decide
  | a :: b :: c :: rest, x, h => by
    have ha := a.toNat_lt
    have hb := b.toNat_lt
    have hc := c.toNat_lt
    simp only [rfc4648_encode, List.cons_append, List.nil_append, List.mem_cons] at h
    rcases h with rfl | rfl | rfl | rfl | h
    any_goals exact base64_char_ne_nul _ (by omega)
    exact rfc4648_encode_ne_nul rest x h

theorem loop_ne_nul (s : List UInt8) : ∀ x ∈ base64_encode.loop s 0, x ≠ 0 := by
  intro x hx
  rw [loop_eq_wrap s 0 rfl (by decide)] at hx
  rcases mem_wrap_from hx with rfl | hx
  · decide
  · exact rfc4648_encode_ne_nul s x hx

/-- `strlen(dst)` is the text before the NUL. -/
theorem strlen_base64_encode (s : List UInt8) :
    strlen (base64_encode s) = (base64_encode.loop s 0).length := by
  rw [strlen, base64_encode, List.takeWhile_append_of_pos (by simpa using loop_ne_nul s),
    List.takeWhile_cons_of_neg (by simp), List.append_nil]

theorem length_loop_encode (s : List UInt8) :
    (base64_encode.loop s 0).length =
      (s.length + 2) / 3 * 4 + ((s.length + 2) / 3 * 4 - 1) / 76 := by
  rw [loop_eq_wrap s 0 rfl (by decide), length_wrap_from _ (by decide) _ 0 (by decide),
    length_rfc4648_encode, Nat.zero_add]

/-- What `base64_decode` does with the text `base64_encode` writes, for every input: it
    returns the input's length cast to `int`, writes the input and a zero byte for each
    pad, and reads the text to its end. -/
theorem base64_decode_encode (s : List UInt8) (allow : Bool) :
    base64_decode (base64_encode s) (strlen (base64_encode s)) allow =
      (Int.bmod s.length (2 ^ 32), s ++ List.replicate ((3 - s.length % 3) % 3) 0,
        strlen (base64_encode s)) := by
  have htake : (base64_encode s).take (strlen (base64_encode s)) = base64_encode.loop s 0 := by
    rw [strlen_base64_encode, base64_encode, List.take_left' rfl]
  have hfuel : s.length / 3 < strlen (base64_encode s) + 1 := by
    rw [strlen_base64_encode, length_loop_encode]
    omega
  obtain ⟨⟨src, c, err, st, m⟩, h, hs, he⟩ :=
    decode_loop_encode allow s 0 _ 0 0 [] rfl (by decide) hfuel
  simp only at hs he
  subst hs he
  simp only [List.length_nil, List.nil_append, Nat.zero_add] at h
  -- the last skip of white space finds the end of the input: no error
  have hskip := skip_spaces_of_nil ⟨[], c, false, 0, m⟩ rfl
  simp only [base64_decode, htake, h, hskip, gt_iff_lt, Nat.lt_irrefl, if_false,
    List.length_nil, Nat.sub_zero, Bool.not_true, Bool.false_eq_true]

theorem bmod_of_lt_two_pow_31 (n : Nat) (h : n < 2 ^ 31) : Int.bmod n (2 ^ 32) = n := by
  have h1 : ((2 ^ 32 : Nat) : Int) = 4294967296 := rfl
  rw [Int.bmod, h1]
  have h2 : (n : Int) % 4294967296 = n := Int.emod_eq_of_lt (by omega) (by omega)
  rw [h2]
  split <;> omega

/-- **Base64 round trip**, for inputs below `2^31` bytes: `base64_encode` writes
    `base64_needed_encoded_length(n)` bytes, the RFC 4648 text on lines of 76 and a NUL;
    `base64_decode` of that text returns `n`, writes the input and a zero byte for each
    pad, within `base64_needed_decoded_length(strlen(dst))` bytes, and reads to the end. -/
theorem base64_round_trip (s : List UInt8) (hs : s.length < 2 ^ 31) :
    (base64_encode s).length = base64_needed_encoded_length s.length ∧
      base64_encode s = wrap_lines '\n'.toUInt8 76 (rfc4648_encode s) ++ [0] ∧
      base64_decode (base64_encode s) (strlen (base64_encode s)) false =
        ((s.length : Int), s ++ List.replicate ((3 - s.length % 3) % 3) 0,
          strlen (base64_encode s)) ∧
      (s ++ List.replicate ((3 - s.length % 3) % 3) 0).length ≤
        base64_needed_decoded_length (strlen (base64_encode s)) := by
  have hlen := length_loop_encode s
  have h64 : (2 : Nat) ^ 64 = 18446744073709551616 := rfl
  refine ⟨?_, base64_encode_eq s, ?_, ?_⟩
  · -- the `uint64` arithmetic does not wrap below `2^31` bytes
    rw [base64_encode, List.length_append, hlen, base64_needed_encoded_length]
    split
    · simp_all
    · have hm : 0 < (s.length + 2) / 3 * 4 := by omega
      have hm64 : (s.length + 2) / 3 * 4 < 2 ^ 64 := by rw [h64]; omega
      dsimp only
      rw [u64_of_lt (show s.length + 2 < 2 ^ 64 by rw [h64]; omega), u64_of_lt hm64,
        u64_add_pred hm hm64,
        u64_of_lt (show (s.length + 2) / 3 * 4 + ((s.length + 2) / 3 * 4 - 1) / 76 + 1 < 2 ^ 64 by
          rw [h64]; omega),
        List.length_singleton]
  · rw [base64_decode_encode, bmod_of_lt_two_pow_31 _ hs]
  · rw [strlen_base64_encode, hlen, base64_needed_decoded_length,
      u64_of_lt (show ((s.length + 2) / 3 * 4 + ((s.length + 2) / 3 * 4 - 1) / 76) * 3 < 2 ^ 64 by
        rw [h64]; omega),
      List.length_append, List.length_replicate]
    omega

theorem base64_round_trip_man :
    [(77 : UInt8), 97, 110].length < 2 ^ 31 ∧
      (base64_encode [77, 97, 110]).length = base64_needed_encoded_length [(77 : UInt8), 97, 110].length ∧
      base64_encode [77, 97, 110] = wrap_lines '\n'.toUInt8 76 (rfc4648_encode [77, 97, 110]) ++ [0] ∧
      base64_decode (base64_encode [77, 97, 110]) (strlen (base64_encode [77, 97, 110])) false =
        (([(77 : UInt8), 97, 110].length : Int), [77, 97, 110] ++
          List.replicate ((3 - [(77 : UInt8), 97, 110].length % 3) % 3) 0,
          strlen (base64_encode [77, 97, 110])) ∧
      ([77, 97, 110] ++ List.replicate ((3 - [(77 : UInt8), 97, 110].length % 3) % 3) 0).length ≤
        base64_needed_decoded_length (strlen (base64_encode [77, 97, 110])) :=
  ⟨by decide, base64_round_trip [77, 97, 110] (by decide)⟩

/-- **Two gibibytes decode to a negative count.** `base64_decode` returns
    `(int) (d - dst)`: for an input of `2^31` bytes the round trip returns `-2^31`. -/
theorem base64_decode_two_gib :
    (base64_decode (base64_encode (List.replicate (2 ^ 31) 0))
      (strlen (base64_encode (List.replicate (2 ^ 31) 0))) false).1 = -2 ^ 31 := by
  rw [base64_decode_encode, List.length_replicate]
  decide

example : base64_decode [84, 87, 70, 117] 4 false = (3, [77, 97, 110], 4) := by decide

example : base64_decode [84, 81, 61, 61] 4 false = (1, [77, 0, 0], 4) := by decide

/-- A character outside the alphabet is an error, and `end_ptr` stops before it. -/
example : base64_decode [84, 81, 61, 61, 33] 5 false = (-1, [77, 0, 0], 4) := by decide

end AliSql
