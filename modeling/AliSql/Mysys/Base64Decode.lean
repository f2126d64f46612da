import Mathlib
import AliSql.Mysys.Base64

/-!
# The text `base64_decode` accepts

`base64_decode` reads its input through a small state machine spread over three functions:
`my_base64_decoder_skip_spaces` passes over what `from_base64_table` marks as space,
`my_base64_add` takes six bits or fails, and `my_base64_decoder_getch` forgives a failed `=`
in the third and fourth place of a group and forbids a letter after it. The accepted language
is written down nowhere in the source. Here it is a parser of its own, `rfc4648_decode`, over
the text with the spaces deleted: groups of four characters, of which only `xxx=` and `xx==`
may be padded, and only the last unless `MY_BASE64_DECODE_ALLOW_MULTIPLE_CHUNKS`.

The proof says once what one call of `my_base64_decoder_getch` can do (`getch_cons`,
`getch_false`, `getch_true`), derives what a group of four calls does, and runs the loop
group by group: `base64_decode_of_rfc4648` for a text the parser accepts and
`base64_decode_of_rfc4648_none` for one it rejects.
-/

namespace AliSql

/-! ## The language -/

/-- The bytes `from_base64_table` marks as space (`-2`). -/
def is_space (ch : UInt8) : Bool := from_base64 ch == -2

/-- The bytes of the alphabet, whose entry in `from_base64_table` is their six bits. -/
def is_base64 (ch : UInt8) : Bool := decide (0 ≤ from_base64 ch)

def sextet (ch : UInt8) : Nat := (from_base64 ch).toNat

def base64_pad : UInt8 := '='.toUInt8

/-- The text with the spaces deleted. -/
def spaceless (t : List UInt8) : List UInt8 := t.filter (fun ch => !is_space ch)

/-- A group of four characters: its 24 bits, six a character with a pad as zeros, and the
number of pads. Only `xxxx`, `xxx=` and `xx==` are groups. -/
def base64_group (a b c d : UInt8) : Option (Nat × Nat) :=
  if is_base64 a ∧ is_base64 b ∧ is_base64 c ∧ is_base64 d then
    some (((sextet a * 64 + sextet b) * 64 + sextet c) * 64 + sextet d, 0)
  else if is_base64 a ∧ is_base64 b ∧ is_base64 c ∧ d = base64_pad then
    some (((sextet a * 64 + sextet b) * 64 + sextet c) * 64, 1)
  else if is_base64 a ∧ is_base64 b ∧ c = base64_pad ∧ d = base64_pad then
    some ((sextet a * 64 + sextet b) * 64 * 64, 2)
  else none

/-- The three bytes of 24 bits, the most significant first. -/
def group_bytes (v : Nat) : List UInt8 :=
  [UInt8.ofNat (v / 2 ^ 16 % 256), UInt8.ofNat (v / 2 ^ 8 % 256), UInt8.ofNat (v % 256)]

theorem length_take_group_bytes (v p : Nat) : ((group_bytes v).take (3 - p)).length = 3 - p := by
  simp [group_bytes]

/-- Padded base64 (RFC 4648, section 4) over a text without spaces: the bytes it stands for,
each group giving the bytes its pads do not cover. A padded group ends the text unless
`allow_multiple_chunks`. -/
def rfc4648_decode (allow_multiple_chunks : Bool) : List UInt8 → Option (List UInt8)
  | [] => some []
  | a :: b :: c :: d :: rest =>
    match base64_group a b c d with
    | none => none
    | some (v, pads) =>
      if pads ≠ 0 ∧ allow_multiple_chunks = false ∧ rest ≠ [] then none
      else ((group_bytes v).take (3 - pads) ++ ·) <$> rfc4648_decode allow_multiple_chunks rest
  | _ => none

example : rfc4648_decode false [84, 87, 70, 117, 84, 81, 61, 61] = some [77, 97, 110, 77] := by
  decide

/-! ## The table -/

section Table

set_option maxRecDepth 4096

/-- A fact about every byte, checked on the 256 of them. -/
theorem uint8_forall {P : UInt8 → Prop} (h : ∀ n < 256, P (UInt8.ofNat n)) (ch : UInt8) : P ch := by
  have hp := h ch.toNat ch.toNat_lt
  rwa [UInt8.ofNat_toNat] at hp

theorem from_base64_lt (ch : UInt8) : from_base64 ch < 64 :=
  uint8_forall (P := fun ch => from_base64 ch < 64) (by decide +kernel) ch

theorem is_base64_pad : is_base64 base64_pad = false := by decide

end Table

theorem sextet_lt (ch : UInt8) : sextet ch < 64 := by
  have := from_base64_lt ch
  simp only [sextet]
  omega

/-! ## Spaces -/

theorem spaceless_nil : spaceless [] = [] := rfl

theorem spaceless_append (s t : List UInt8) : spaceless (s ++ t) = spaceless s ++ spaceless t :=
  List.filter_append s t

theorem length_spaceless_le (t : List UInt8) : (spaceless t).length ≤ t.length :=
  List.length_filter_le _ t

/-- The spaces `my_base64_decoder_skip_spaces` passes over are deleted. -/
theorem spaceless_dropWhile (t : List UInt8) : spaceless t = spaceless (t.dropWhile is_space) := by
  have hspaces : spaceless (t.takeWhile is_space) = [] :=
    List.filter_eq_nil_iff.2 fun x hx => by simp [List.mem_takeWhile_imp hx]
  conv_lhs => rw [← List.takeWhile_append_dropWhile (p := is_space) (l := t)]
  rw [spaceless_append, hspaces, List.nil_append]

theorem spaceless_of_dropWhile_nil {t : List UInt8} (h : t.dropWhile is_space = []) :
    spaceless t = [] := by
  rw [spaceless_dropWhile, h, spaceless_nil]

theorem spaceless_of_dropWhile_cons {t t' : List UInt8} {ch : UInt8}
    (h : t.dropWhile is_space = ch :: t') : spaceless t = ch :: spaceless t' := by
  have hch : is_space ch = false := by
    have := List.head_dropWhile_not is_space (l := t) (by simp [h])
    simpa [h] using this
  rw [spaceless_dropWhile, h, spaceless, List.filter_cons_of_pos (by simp [hch])]
  rfl

/-- The first character that is not a space, from the text without spaces. -/
theorem dropWhile_of_spaceless_cons {t u : List UInt8} {ch : UInt8}
    (h : spaceless t = ch :: u) : ∃ t', t.dropWhile is_space = ch :: t' ∧ spaceless t' = u := by
  cases hd : t.dropWhile is_space with
  | nil => simp [spaceless_of_dropWhile_nil hd] at h
  | cons ch' t' =>
    rw [spaceless_of_dropWhile_cons hd, List.cons.injEq] at h
    obtain ⟨rfl, rfl⟩ := h
    exact ⟨t', rfl, rfl⟩

theorem dropWhile_of_spaceless_nil {t : List UInt8} (h : spaceless t = []) :
    t.dropWhile is_space = [] := by
  cases hd : t.dropWhile is_space with
  | nil => rfl
  | cons ch' t' => simp [spaceless_of_dropWhile_cons hd] at h

/-! ## One character -/

section Getch

variable {d d' : MY_BASE64_DECODER} {ch : UInt8} {t : List UInt8}

theorem skip_spaces_of_dropWhile_nil (h : d.src.dropWhile is_space = []) :
    my_base64_decoder_skip_spaces d =
      (true, { d with src := [], error := if d.state > 0 then true else d.error }) := by
  unfold is_space at h
  simp only [my_base64_decoder_skip_spaces, h]

theorem skip_spaces_of_dropWhile_cons (h : d.src.dropWhile is_space = ch :: t) :
    my_base64_decoder_skip_spaces d = (false, { d with src := ch :: t }) := by
  unfold is_space at h
  simp only [my_base64_decoder_skip_spaces, h]

theorem getch_of_dropWhile_nil (h : d.src.dropWhile is_space = []) :
    my_base64_decoder_getch d =
      (true, { d with src := [], error := if d.state > 0 then true else d.error }) := by
  simp only [my_base64_decoder_getch, skip_spaces_of_dropWhile_nil h]

/-- **What one call does**, from the first character that is not a space: an alphabet
character adds its six bits unless a pad came before it, a pad is forgiven in the third and
fourth place, and anything else is an error that leaves the character unread. -/
theorem getch_cons (h : d.src.dropWhile is_space = ch :: t) :
    my_base64_decoder_getch d =
      if is_base64 ch then
        if d.mark ≠ 0 then
          (true, { d with
            src := ch :: t, c := d.c * 2 ^ 6 % 2 ^ 32 + sextet ch, error := true })
        else (false, { d with
          src := t, c := d.c * 2 ^ 6 % 2 ^ 32 + sextet ch, state := d.state + 1 })
      else if (d.state = 2 ∨ d.state = 3) ∧ ch = base64_pad then
        (false, { d with
          src := t, c := d.c * 2 ^ 6 % 2 ^ 32, error := false, mark := d.mark + 1,
          state := d.state + 1 })
      else if d.state ≤ 3 then
        (true, { d with src := ch :: t, c := d.c * 2 ^ 6 % 2 ^ 32, error := true })
      else (true, { d with src := t, c := d.c * 2 ^ 6 % 2 ^ 32, error := true }) := by
  obtain ⟨src, c, e, st, m⟩ := d
  simp only [my_base64_decoder_getch, skip_spaces_of_dropWhile_cons h, my_base64_add]
  by_cases hb : is_base64 ch = true
  · have hpos : ¬ from_base64 ch < 0 := by simpa [is_base64] using hb
    simp only [hpos, if_false, hb, if_true, sextet]
  · have hneg : from_base64 ch < 0 := by simpa [is_base64] using hb
    simp only [hneg, if_true, hb, Bool.false_eq_true, if_false, List.headD_cons, base64_pad]
    -- the failed add is forgiven only by the `switch` on the state
    rcases st with _ | _ | _ | _ | st <;> simp

/-- A call that goes on took an alphabet character with no pad before it, or a pad in the
third or fourth place of the group. -/
theorem getch_false (h : my_base64_decoder_getch d = (false, d')) :
    ∃ ch t', d.src.dropWhile is_space = ch :: t' ∧
      ((is_base64 ch = true ∧ d.mark = 0 ∧
          d' = { d with
            src := t', c := d.c * 2 ^ 6 % 2 ^ 32 + sextet ch, state := d.state + 1 }) ∨
        (ch = base64_pad ∧ (d.state = 2 ∨ d.state = 3) ∧
          d' = { d with
            src := t', c := d.c * 2 ^ 6 % 2 ^ 32, error := false, mark := d.mark + 1,
            state := d.state + 1 })) := by
  cases hd : d.src.dropWhile is_space with
  | nil => simp [getch_of_dropWhile_nil hd] at h
  | cons ch t =>
    rw [getch_cons hd] at h
    refine ⟨ch, t, rfl, ?_⟩
    split_ifs at h with hb hm hp hst <;> obtain ⟨h1, rfl⟩ := Prod.mk.inj h
    · simp at h1
    · exact .inl ⟨hb, by simpa using hm, rfl⟩
    · exact .inr ⟨hp.2, hp.1, rfl⟩
    · simp at h1
    · simp at h1

/-- A call that stops with no error met the end of the input before a group was begun. -/
theorem getch_true (h : my_base64_decoder_getch d = (true, d')) (he : d'.error = false) :
    d.src.dropWhile is_space = [] ∧ d.state = 0 ∧ d.error = false ∧ d' = { d with src := [] } := by
  cases hd : d.src.dropWhile is_space with
  | nil =>
    rw [getch_of_dropWhile_nil hd] at h
    obtain ⟨-, rfl⟩ := Prod.mk.inj h
    by_cases hst : d.state > 0
    · simp [hst] at he
    · simp only [hst, if_false] at he
      refine ⟨rfl, by omega, he, ?_⟩
      simp [hst]
  | cons ch t =>
    rw [getch_cons hd] at h
    split_ifs at h <;> obtain ⟨h1, rfl⟩ := Prod.mk.inj h <;> simp at h1 he

theorem state_of_getch_false (h : my_base64_decoder_getch d = (false, d')) :
    d'.state = d.state + 1 := by
  obtain ⟨ch, t', -, ⟨-, -, rfl⟩ | ⟨-, -, rfl⟩⟩ := getch_false h <;> rfl

theorem getch_n_succ_false {n : Nat} (h : my_base64_decoder_getch_n (n + 1) d = (false, d')) :
    ∃ d1, my_base64_decoder_getch d = (false, d1) ∧ my_base64_decoder_getch_n n d1 = (false, d') := by
  rw [my_base64_decoder_getch_n] at h
  rcases hg : my_base64_decoder_getch d with ⟨_ | _, d1⟩ <;> rw [hg] at h
  · exact ⟨d1, rfl, h⟩
  · simp at h

/-- A run of calls that stops with no error stopped at its first call, at the end of the
input: every later call starts in a group already begun. -/
theorem getch_n_true : ∀ {n : Nat} {d : MY_BASE64_DECODER},
    my_base64_decoder_getch_n n d = (true, d') → d'.error = false →
      d.src.dropWhile is_space = [] ∧ d.state = 0 ∧ d.error = false ∧ d' = { d with src := [] }
  | 0, d, h, _ => by simp [my_base64_decoder_getch_n] at h
  | n + 1, d, h, he => by
    rw [my_base64_decoder_getch_n] at h
    rcases hg : my_base64_decoder_getch d with ⟨_ | _, d1⟩ <;> rw [hg] at h
    · have hst := state_of_getch_false hg
      have := (getch_n_true h he).2.1
      omega
    · obtain ⟨-, rfl⟩ := Prod.mk.inj h
      exact getch_true hg he

theorem getch_letter {src t : List UInt8} {ch : UInt8} (h : src.dropWhile is_space = ch :: t)
    (hch : is_base64 ch = true) (c : Nat) (e : Bool) (st : Nat) :
    my_base64_decoder_getch ⟨src, c, e, st, 0⟩ =
      (false, ⟨t, c * 2 ^ 6 % 2 ^ 32 + sextet ch, e, st + 1, 0⟩) := by
  rw [getch_cons (d := ⟨src, c, e, st, 0⟩) h]
  simp [hch]

theorem getch_of_pad {src t : List UInt8} (h : src.dropWhile is_space = base64_pad :: t)
    (c : Nat) (e : Bool) {st : Nat} (hst : st = 2 ∨ st = 3) (m : Nat) :
    my_base64_decoder_getch ⟨src, c, e, st, m⟩ =
      (false, ⟨t, c * 2 ^ 6 % 2 ^ 32, false, st + 1, m + 1⟩) := by
  rw [getch_cons (d := ⟨src, c, e, st, m⟩) h]
  simp [is_base64_pad, hst]

end Getch

/-! ## One group -/

section Group

variable {t t' u : List UInt8} {d' : MY_BASE64_DECODER}

/-- A group whose four calls go on is `xxxx`, `xxx=` or `xx==`. -/
theorem getch_n_four_false (h : my_base64_decoder_getch_n 4 ⟨t, 0, false, 0, 0⟩ = (false, d')) :
    ∃ a b c e, spaceless t = a :: b :: c :: e :: spaceless d'.src ∧
      base64_group a b c e = some (d'.c, d'.mark) ∧ d'.error = false := by
  obtain ⟨d1, h1, h⟩ := getch_n_succ_false h
  obtain ⟨d2, h2, h⟩ := getch_n_succ_false h
  obtain ⟨d3, h3, h⟩ := getch_n_succ_false h
  obtain ⟨d4, h4, h⟩ := getch_n_succ_false h
  obtain ⟨-, rfl⟩ := Prod.mk.inj h
  -- the first two places take only alphabet characters
  obtain ⟨a, t1, ht1, ⟨ha, -, rfl⟩ | ⟨-, hst, -⟩⟩ := getch_false h1
  swap; · simp at hst
  obtain ⟨b, t2, ht2, ⟨hb, -, rfl⟩ | ⟨-, hst, -⟩⟩ := getch_false h2
  swap; · simp at hst
  have hsa := sextet_lt a
  have hsb := sextet_lt b
  obtain ⟨c, t3, ht3, ⟨hc, -, rfl⟩ | ⟨rfl, -, rfl⟩⟩ := getch_false h3
  · -- `xxx` then a letter or a pad
    have hsc := sextet_lt c
    obtain ⟨e, t4, ht4, ⟨he, -, rfl⟩ | ⟨rfl, -, rfl⟩⟩ := getch_false h4
    · have hse := sextet_lt e
      refine ⟨a, b, c, e, ?_, ?_, rfl⟩
      · simp [spaceless_of_dropWhile_cons ht1, spaceless_of_dropWhile_cons ht2,
          spaceless_of_dropWhile_cons ht3, spaceless_of_dropWhile_cons ht4]
      · -- the `uint` of `my_base64_add` does not wrap on 24 bits
        simp [base64_group, ha, hb, hc, he]
        omega
    · refine ⟨a, b, c, base64_pad, ?_, ?_, rfl⟩
      · simp [spaceless_of_dropWhile_cons ht1, spaceless_of_dropWhile_cons ht2,
          spaceless_of_dropWhile_cons ht3, spaceless_of_dropWhile_cons ht4]
      · simp [base64_group, ha, hb, hc, is_base64_pad]
        omega
  · -- `xx=`: a letter after the pad is an error, so a second pad
    obtain ⟨e, t4, ht4, ⟨-, hm, -⟩ | ⟨rfl, -, rfl⟩⟩ := getch_false h4
    · simp at hm
    · refine ⟨a, b, base64_pad, base64_pad, ?_, ?_, rfl⟩
      · simp [spaceless_of_dropWhile_cons ht1, spaceless_of_dropWhile_cons ht2,
          spaceless_of_dropWhile_cons ht3, spaceless_of_dropWhile_cons ht4]
      · simp [base64_group, ha, hb, is_base64_pad]
        omega

theorem base64_group_pads {a b c e : UInt8} {v p : Nat} (hg : base64_group a b c e = some (v, p)) :
    p ≤ 2 := by
  unfold base64_group at hg
  split_ifs at hg <;> simp only [Option.some.injEq, Prod.mk.injEq] at hg <;> omega

/-- The pads of a group are its `=` characters: an alphabet character is no pad. -/
theorem base64_group_count {a b c e : UInt8} {v p : Nat} (hg : base64_group a b c e = some (v, p)) :
    [a, b, c, e].count base64_pad = p := by
  have hne : ∀ {x : UInt8}, is_base64 x = true → x ≠ base64_pad := by
    rintro x hx rfl
    simp [is_base64_pad] at hx
  unfold base64_group at hg
  split_ifs at hg with h4 h3 h2 <;>
    simp only [Option.some.injEq, Prod.mk.injEq] at hg <;> obtain ⟨-, rfl⟩ := hg
  · obtain ⟨ha, hb, hc, he⟩ := h4
    simp [hne ha, hne hb, hne hc, hne he]
  · obtain ⟨ha, hb, hc, rfl⟩ := h3
    simp [hne ha, hne hb, hne hc]
  · obtain ⟨ha, hb, rfl, rfl⟩ := h2
    simp [hne ha, hne hb]

theorem getch_n_four_of_nil (h : spaceless t = []) :
    my_base64_decoder_getch_n 4 ⟨t, 0, false, 0, 0⟩ = (true, ⟨[], 0, false, 0, 0⟩) := by
  simp [my_base64_decoder_getch_n,
    getch_of_dropWhile_nil (d := ⟨t, 0, false, 0, 0⟩) (dropWhile_of_spaceless_nil h)]

/-- A group `xxxx`, `xxx=` or `xx==` goes through the four calls. -/
theorem getch_n_four_of_group {a b c e : UInt8} {v p : Nat}
    (h : spaceless t = a :: b :: c :: e :: u) (hg : base64_group a b c e = some (v, p)) :
    ∃ t', spaceless t' = u ∧
      my_base64_decoder_getch_n 4 ⟨t, 0, false, 0, 0⟩ = (false, ⟨t', v, false, 4, p⟩) := by
  obtain ⟨t1, ht1, hu1⟩ := dropWhile_of_spaceless_cons h
  obtain ⟨t2, ht2, hu2⟩ := dropWhile_of_spaceless_cons hu1
  obtain ⟨t3, ht3, hu3⟩ := dropWhile_of_spaceless_cons hu2
  obtain ⟨t4, ht4, hu4⟩ := dropWhile_of_spaceless_cons hu3
  refine ⟨t4, hu4, ?_⟩
  have hsa := sextet_lt a
  have hsb := sextet_lt b
  have hsc := sextet_lt c
  have hse := sextet_lt e
  unfold base64_group at hg
  split_ifs at hg with h4 h3 h2 <;>
    simp only [Option.some.injEq, Prod.mk.injEq] at hg <;> obtain ⟨rfl, rfl⟩ := hg
  · obtain ⟨ha, hb, hc, he⟩ := h4
    simp only [my_base64_decoder_getch_n, getch_letter ht1 ha, getch_letter ht2 hb,
      getch_letter ht3 hc, getch_letter ht4 he, Prod.mk.injEq, MY_BASE64_DECODER.mk.injEq, true_and, and_true, Nat.reducePow]
    omega
  · obtain ⟨ha, hb, hc, rfl⟩ := h3
    simp only [my_base64_decoder_getch_n, getch_letter ht1 ha, getch_letter ht2 hb,
      getch_letter ht3 hc, getch_of_pad ht4 _ _ (.inr rfl), Prod.mk.injEq,
      MY_BASE64_DECODER.mk.injEq, true_and, and_true, Nat.reducePow]
    omega
  · obtain ⟨ha, hb, rfl, rfl⟩ := h2
    simp only [my_base64_decoder_getch_n, getch_letter ht1 ha, getch_letter ht2 hb,
      getch_of_pad ht3 _ _ (.inl rfl), getch_of_pad ht4 _ _ (.inr rfl), Prod.mk.injEq,
      MY_BASE64_DECODER.mk.injEq, true_and, and_true, Nat.reducePow]
    omega

end Group

/-! ## The parser's equations -/

theorem rfc4648_decode_nil (allow : Bool) : rfc4648_decode allow [] = some [] := rfl

theorem rfc4648_decode_group {allow : Bool} {a b c e : UInt8} {v p : Nat} (rest : List UInt8)
    (hg : base64_group a b c e = some (v, p)) (hpad : ¬ (p ≠ 0 ∧ allow = false ∧ rest ≠ [])) :
    rfc4648_decode allow (a :: b :: c :: e :: rest) =
      ((group_bytes v).take (3 - p) ++ ·) <$> rfc4648_decode allow rest := by
  simp only [rfc4648_decode, hg, hpad, if_false]

/-- What the parser accepts: nothing, or a group and then a text it accepts, with a padded
group last unless `allow_multiple_chunks`. -/
theorem rfc4648_decode_eq_some {allow : Bool} {u out : List UInt8}
    (h : rfc4648_decode allow u = some out) :
    (u = [] ∧ out = []) ∨
      ∃ a b c e rest v p out', u = a :: b :: c :: e :: rest ∧
        base64_group a b c e = some (v, p) ∧ ¬ (p ≠ 0 ∧ allow = false ∧ rest ≠ []) ∧
        rfc4648_decode allow rest = some out' ∧ out = (group_bytes v).take (3 - p) ++ out' := by
  rcases u with _ | ⟨a, _ | ⟨b, _ | ⟨c, _ | ⟨e, rest⟩⟩⟩⟩
  · exact .inl ⟨rfl, (Option.some.inj h).symm⟩
  · simp [rfc4648_decode] at h
  · simp [rfc4648_decode] at h
  · simp [rfc4648_decode] at h
  right
  rcases hg : base64_group a b c e with _ | ⟨v, p⟩
  · simp [rfc4648_decode, hg] at h
  · by_cases hpad : p ≠ 0 ∧ allow = false ∧ rest ≠ []
    · simp [rfc4648_decode, hg, hpad] at h
    · rw [rfc4648_decode_group rest hg hpad, Option.map_eq_map, Option.map_eq_some_iff] at h
      obtain ⟨out', hr, rfl⟩ := h
      exact ⟨a, b, c, e, rest, v, p, out', rfl, hg, hpad, hr, rfl⟩

/-- An accepted text of `g` groups stands for `3 * g` bytes less its pads. -/
theorem rfc4648_decode_length {allow : Bool} :
    ∀ {u out : List UInt8}, rfc4648_decode allow u = some out →
      out.length + u.count base64_pad = 3 * (u.length / 4)
  | u, out, h => by
    rcases rfc4648_decode_eq_some h with
      ⟨rfl, rfl⟩ | ⟨a, b, c, e, rest, v, p, out', rfl, hg, -, hr, rfl⟩
    · rfl
    have ih := rfc4648_decode_length hr
    have hc := base64_group_count hg
    have hp := base64_group_pads hg
    rw [show a :: b :: c :: e :: rest = [a, b, c, e] ++ rest from rfl, List.count_append, hc,
      List.length_append, List.length_append, length_take_group_bytes]
    simp only [List.length_cons, List.length_nil]
    omega
termination_by u => u.length

/-! ## The loop -/

/-- The three stores of a group at `d`. -/
def store_group (mem : List UInt8) (d v : Nat) : List UInt8 :=
  store (store (store mem d (UInt8.ofNat (v / 2 ^ 16 % 256))) (d + 1)
    (UInt8.ofNat (v / 2 ^ 8 % 256))) (d + 2) (UInt8.ofNat (v % 256))

/-- A group is written at `d`, over at most the two bytes the pads of the group before left
past `d`. -/
theorem store_group_eq {mem : List UInt8} {d : Nat} (h1 : d ≤ mem.length)
    (h2 : mem.length ≤ d + 2) (v : Nat) : store_group mem d v = mem.take d ++ group_bytes v := by
  obtain ⟨pre, post, rfl, rfl⟩ : ∃ pre post, mem = pre ++ post ∧ pre.length = d :=
    ⟨mem.take d, mem.drop d, (List.take_append_drop d mem).symm, List.length_take_of_le h1⟩
  rw [List.length_append] at h2
  rcases post with _ | ⟨x, _ | ⟨y, _ | ⟨z, post⟩⟩⟩
  · simp [store_group, store, group_bytes]
  · simp [store_group, store, group_bytes, List.set_append_right]
  · simp [store_group, store, group_bytes, List.set_append_right]
  · simp at h2

/-- One turn of the loop after four calls that go on: the group is stored at `d`, and the
loop stops after a pad unless `allow_multiple_chunks`. -/
theorem loop_succ_of_group {allow : Bool} {fuel : Nat} {t : List UInt8} {c st : Nat}
    {mem : List UInt8} {d : Nat} {d' : MY_BASE64_DECODER}
    (hg : my_base64_decoder_getch_n 4 ⟨t, 0, false, 0, 0⟩ = (false, d')) :
    base64_decode.loop allow (fuel + 1) ⟨t, c, false, st, 0⟩ mem d =
      if d'.mark ≠ 0 then
        if !allow then (d', store_group mem d d'.c, d + 3 - d'.mark)
        else base64_decode.loop allow fuel { d' with mark := 0 } (store_group mem d d'.c)
          (d + 3 - d'.mark)
      else base64_decode.loop allow fuel d' (store_group mem d d'.c) (d + 3) := by
  simp only [base64_decode.loop, hg, store_group]

/-- The loop stopped with nothing but spaces left and no error, having written `out` after
the first `d` bytes of `mem`. -/
def loop_wrote (r : MY_BASE64_DECODER × List UInt8 × Nat) (mem : List UInt8) (d : Nat)
    (out : List UInt8) : Prop :=
  r.1.src.dropWhile is_space = [] ∧ r.1.error = false ∧ r.2.2 = d + out.length ∧
    r.2.1.take (d + out.length) = mem.take d ++ out

/-- The group's bytes and what the rest writes after them. -/
theorem take_store_group {mem : List UInt8} {d : Nat} (h1 : d ≤ mem.length)
    (h2 : mem.length ≤ d + 2) (v p : Nat) :
    (store_group mem d v).take (d + (3 - p)) = mem.take d ++ (group_bytes v).take (3 - p) := by
  rw [store_group_eq h1 h2, List.take_append, List.length_take_of_le h1,
    List.take_of_length_le (by simp), Nat.add_sub_cancel_left]

/-- What the loop wrote after a group, from what it wrote after the rest. -/
theorem loop_wrote_group {r : MY_BASE64_DECODER × List UInt8 × Nat} {mem : List UInt8}
    {d v p : Nat} {out' : List UInt8} (h1 : d ≤ mem.length) (h2 : mem.length ≤ d + 2)
    (h : loop_wrote r (store_group mem d v) (d + (3 - p)) out') :
    loop_wrote r mem d ((group_bytes v).take (3 - p) ++ out') := by
  obtain ⟨e1, e2, e3, e4⟩ := h
  refine ⟨e1, e2, ?_, ?_⟩
  · rw [e3, List.length_append, length_take_group_bytes]
    omega
  · rw [List.length_append, length_take_group_bytes, ← Nat.add_assoc, e4,
      take_store_group h1 h2, List.append_assoc]

/-- **A text the parser accepts**, group by group: the loop writes its bytes after the first
`d` and stops with nothing but spaces left. Induction on the fuel, with the bytes past `d`
(at most two, from a pad) as the invariant. -/
theorem loop_of_rfc4648 (allow : Bool) :
    ∀ (fuel : Nat) {t out : List UInt8} {c st : Nat} {mem : List UInt8} {d : Nat},
      rfc4648_decode allow (spaceless t) = some out → (spaceless t).length ≤ 4 * fuel →
      d ≤ mem.length → mem.length ≤ d + 2 →
      loop_wrote (base64_decode.loop allow fuel ⟨t, c, false, st, 0⟩ mem d) mem d out
  | 0, t, out, c, st, mem, d, h, hlen, _, _ => by
    have hu : spaceless t = [] := List.eq_nil_of_length_eq_zero (by omega)
    rw [hu, rfc4648_decode_nil, Option.some.injEq] at h
    subst h
    exact ⟨dropWhile_of_spaceless_nil hu, rfl, by simp [base64_decode.loop],
      by simp [base64_decode.loop]⟩
  | fuel + 1, t, out, c, st, mem, d, h, hlen, h1, h2 => by
    rcases rfc4648_decode_eq_some h with
      ⟨hu, rfl⟩ | ⟨a, b, c', e, rest, v, p, out', hu, hg, hpad, hr, rfl⟩
    · -- the end of the input
      simp only [loop_wrote, base64_decode.loop, getch_n_four_of_nil hu]
      simp
    obtain ⟨t', rfl, h4⟩ := getch_n_four_of_group hu hg
    have hp := base64_group_pads hg
    have hlen' : (spaceless t').length ≤ 4 * fuel := by
      rw [hu] at hlen
      simp at hlen
      omega
    have hstore_len : (store_group mem d v).length = d + 3 := by
      simp [store_group_eq h1 h2, group_bytes, List.length_take_of_le h1]
    -- what the loop writes when it goes on after the group
    have hnext : loop_wrote (base64_decode.loop allow fuel ⟨t', v, false, 4, 0⟩
        (store_group mem d v) (d + (3 - p))) mem d ((group_bytes v).take (3 - p) ++ out') :=
      loop_wrote_group h1 h2 (loop_of_rfc4648 allow fuel hr hlen'
        (by rw [hstore_len]; omega) (by rw [hstore_len]; omega))
    have hd : d + 3 - p = d + (3 - p) := by omega
    rw [loop_succ_of_group h4]
    by_cases hp0 : p = 0
    · subst hp0
      simpa using hnext
    cases allow
    · -- without `allow_multiple_chunks` a padded group ends the text
      have hrest : spaceless t' = [] := by simpa [hp0] using hpad
      rw [hrest, rfc4648_decode_nil, Option.some.injEq] at hr
      subst hr
      simp only [ne_eq, hp0, not_false_eq_true, if_true, Bool.not_false, hd]
      refine ⟨dropWhile_of_spaceless_nil hrest, rfl, ?_, ?_⟩
      · simp only [List.append_nil, length_take_group_bytes]
      · rw [List.append_nil, length_take_group_bytes]
        exact take_store_group h1 h2 v p
    · simpa [hp0, hd] using hnext

/-- **A text the loop ends cleanly on is one the parser accepts**, whatever the fuel: the
loop stops with only spaces left and no error at the end of the input or after a padded
group, and each group it goes on after is one the parser takes. -/
theorem rfc4648_of_loop (allow : Bool) :
    ∀ (fuel : Nat) {t : List UInt8} {c st : Nat} {mem : List UInt8} {d : Nat},
      (base64_decode.loop allow fuel ⟨t, c, false, st, 0⟩ mem d).1.src.dropWhile is_space = [] →
      (base64_decode.loop allow fuel ⟨t, c, false, st, 0⟩ mem d).1.error = false →
      (rfc4648_decode allow (spaceless t)).isSome
  | 0, t, c, st, mem, d, h, _ => by
    have ht : t.dropWhile is_space = [] := h
    rw [spaceless_of_dropWhile_nil ht, rfc4648_decode_nil]
    rfl
  | fuel + 1, t, c, st, mem, d, h, he => by
    rcases h4 : my_base64_decoder_getch_n 4 ⟨t, 0, false, 0, 0⟩ with ⟨_ | _, d'⟩
    · obtain ⟨a, b, c', e, hu, hg, hde⟩ := getch_n_four_false h4
      obtain ⟨src', c'', e', st', m'⟩ := d'
      simp only at hu hg hde
      subst hde
      have hp := base64_group_pads hg
      rw [loop_succ_of_group h4] at h he
      rw [hu]
      by_cases hm : m' = 0
      · -- no pad: the loop goes on with the rest
        subst hm
        simp only [ne_eq, not_true_eq_false, if_false] at h he
        rw [rfc4648_decode_group _ hg (by simp), Option.map_eq_map, Option.isSome_map]
        exact rfc4648_of_loop allow fuel h he
      cases allow
      · -- a padded group without `allow_multiple_chunks`: only spaces may follow it
        simp only [ne_eq, hm, not_false_eq_true, Bool.not_false, ↓reduceIte] at h
        rw [spaceless_of_dropWhile_nil h, rfc4648_decode_group _ hg (by simp),
          rfc4648_decode_nil]
        rfl
      · simp only [ne_eq, hm, not_false_eq_true, Bool.not_true, Bool.false_eq_true,
          ↓reduceIte] at h he
        rw [rfc4648_decode_group _ hg (by simp), Option.map_eq_map, Option.isSome_map]
        exact rfc4648_of_loop true fuel h he
    · -- the loop stops where the four calls stop
      simp only [base64_decode.loop, h4] at h he
      obtain ⟨hdrop, -, -, -⟩ := getch_n_true h4 he
      rw [spaceless_of_dropWhile_nil hdrop, rfc4648_decode_nil]
      rfl

/-! ## `base64_decode` -/

section Decode

variable {src : List UInt8} {len : Nat} {allow : Bool}

/-- The loop `base64_decode` runs. -/
theorem base64_decode_loop_eq (src : List UInt8) (len : Nat) (allow : Bool) :
    (base64_decode src len allow).2.1 =
      (base64_decode.loop allow (len + 1) ⟨src.take len, 0, false, 0, 0⟩ [] 0).2.1 := rfl

/-- A loop that ends with only spaces left and no error: the count, and `end_ptr` at the end
of the input. -/
theorem base64_decode_of_loop
    (h : (base64_decode.loop allow (len + 1) ⟨src.take len, 0, false, 0, 0⟩ [] 0).1.src.dropWhile
      is_space = [])
    (he : (base64_decode.loop allow (len + 1) ⟨src.take len, 0, false, 0, 0⟩ [] 0).1.error = false) :
    (base64_decode src len allow).1 =
        Int.bmod (base64_decode.loop allow (len + 1) ⟨src.take len, 0, false, 0, 0⟩ [] 0).2.2 (2 ^ 32) ∧
      (base64_decode src len allow).2.2 = len := by
  simp only [base64_decode]
  generalize base64_decode.loop allow (len + 1) ⟨src.take len, 0, false, 0, 0⟩ [] 0 = r at h he ⊢
  obtain ⟨⟨src', c, e, st, m⟩, mem, d⟩ := r
  simp only at h he
  subst he
  rw [skip_spaces_of_dropWhile_nil (d := ⟨src', c, false, 0, m⟩) h]
  simp

/-- Anything else left after the loop, or an error, is `-1`. -/
theorem base64_decode_of_not_loop
    (h : ¬ ((base64_decode.loop allow (len + 1) ⟨src.take len, 0, false, 0, 0⟩ [] 0).1.src.dropWhile
      is_space = [] ∧
      (base64_decode.loop allow (len + 1) ⟨src.take len, 0, false, 0, 0⟩ [] 0).1.error = false)) :
    (base64_decode src len allow).1 = -1 := by
  simp only [base64_decode]
  generalize base64_decode.loop allow (len + 1) ⟨src.take len, 0, false, 0, 0⟩ [] 0 = r at h ⊢
  obtain ⟨⟨src', c, e, st, m⟩, mem, d⟩ := r
  simp only at h
  cases hd : src'.dropWhile is_space with
  | nil =>
    -- only spaces are left: the loop's error stands
    have he : e = true := by simpa [hd] using h
    rw [skip_spaces_of_dropWhile_nil (d := ⟨src', c, e, 0, m⟩) hd]
    simp [he]
  | cons ch t =>
    rw [skip_spaces_of_dropWhile_cons (d := ⟨src', c, e, 0, m⟩) hd]
    simp

/-- **What `base64_decode` does with a text the parser accepts**: it returns the number of
bytes as an `int`, writes them, and sets `end_ptr` to the end of the input. -/
theorem base64_decode_of_rfc4648 {out : List UInt8}
    (h : rfc4648_decode allow (spaceless (src.take len)) = some out) :
    (base64_decode src len allow).1 = Int.bmod out.length (2 ^ 32) ∧
      ((base64_decode src len allow).2.1).take out.length = out ∧
      (base64_decode src len allow).2.2 = len := by
  have hfuel : (spaceless (src.take len)).length ≤ 4 * (len + 1) := by
    have h1 := length_spaceless_le (src.take len)
    have h2 := List.length_take_le len src
    omega
  obtain ⟨e1, e2, e3, e4⟩ :=
    @loop_of_rfc4648 allow (len + 1) _ _ 0 0 [] 0 h hfuel le_rfl (Nat.zero_le _)
  obtain ⟨r1, r2⟩ := base64_decode_of_loop e1 e2
  simp only [Nat.zero_add, List.take_zero, List.nil_append] at e3 e4
  exact ⟨by rw [r1, e3], by rw [base64_decode_loop_eq, e4], r2⟩

/-- **A text the parser rejects** is an error. -/
theorem base64_decode_of_rfc4648_none (h : rfc4648_decode allow (spaceless (src.take len)) = none) :
    (base64_decode src len allow).1 = -1 :=
  base64_decode_of_not_loop fun ⟨h1, h2⟩ => by
    simpa [h] using rfc4648_of_loop allow (len + 1) h1 h2

end Decode

/-! ## The accepted language -/

/-- The text `AAAA` repeated stands for zero bytes. -/
theorem rfc4648_decode_replicate_A (allow : Bool) (n : Nat) :
    rfc4648_decode allow (List.replicate (4 * n) 65) = some (List.replicate (3 * n) 0) := by
  induction n with
  | zero => rfl
  | succ n ih =>
    have hg : base64_group 65 65 65 65 = some (0, 0) := by decide
    rw [show 4 * (n + 1) = 4 * n + 1 + 1 + 1 + 1 by omega, List.replicate_succ, List.replicate_succ,
      List.replicate_succ, List.replicate_succ, rfc4648_decode_group _ hg (by simp), ih,
      show 3 * (n + 1) = 3 + 3 * n by omega, List.replicate_add]
    rfl

/-- `AAAA` repeated `n` times is accepted, and `base64_decode` returns `3 * n` cast to `int`. -/
theorem base64_decode_replicate_A (n : Nat) :
    (rfc4648_decode false (spaceless ((List.replicate (4 * n) 65).take (4 * n)))).isSome ∧
      (base64_decode (List.replicate (4 * n) 65) (4 * n) false).1 = Int.bmod (3 * n : Nat) (2 ^ 32) := by
  have hu : spaceless ((List.replicate (4 * n) (65 : UInt8)).take (4 * n)) =
      List.replicate (4 * n) 65 := by
    rw [List.take_of_length_le (by simp), spaceless, List.filter_replicate]
    simp [show is_space 65 = false by decide]
  have hr := rfc4648_decode_replicate_A false n
  rw [← hu] at hr
  refine ⟨by rw [hr]; rfl, ?_⟩
  rw [(base64_decode_of_rfc4648 hr).1, List.length_replicate]

/-- **A text accepted with a negative count**: `AAAA` repeated `715827883` times stands for
`3 * 715827883 = 2^31 + 1` bytes, and `base64_decode` returns that count cast to `int`,
`2^31 + 1 - 2^32`. -/
theorem base64_decode_accepted_negative :
    (rfc4648_decode false (spaceless ((List.replicate (4 * 715827883) 65).take (4 * 715827883)))).isSome ∧
      (base64_decode (List.replicate (4 * 715827883) 65) (4 * 715827883) false).1 < 0 := by
  obtain ⟨h1, h2⟩ := base64_decode_replicate_A 715827883
  refine ⟨h1, ?_⟩
  rw [h2]
  decide

end AliSql
