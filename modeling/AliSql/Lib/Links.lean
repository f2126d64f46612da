import Mathlib

/-!
# Lists linked through an array

Several singly linked lists kept in one array of cells: each cell names the cell after it
by its index, through `next : Nat → Nat`, and one reserved index `nil` ends a list. The
cells are relinked and overwritten in place, so what is proved about such a table is what
following `next` visits.

`Path next i l j` says that from `i`, following `next` passes the cells `l` in turn and
then stands at `j`. It is stated in closed form, `i :: l.map next = l ++ [j]`, so that
paths are cut and joined by list algebra (`path_append`, `path_concat`) and a loop that
follows the links is proved by induction on the list of cells it passes (`path_cons`).
`Chain next nil i l` is the path from `i` to `nil` that never passes `nil`: the list
linked from `i`.

* a chain is decided by where it starts (`Chain.unique`) and passes no cell twice
  (`Chain.nodup`); every suffix of it is the chain from its first cell
  (`Chain.of_append`);
* the frame rule: a path is kept by any change of `next` away from its cells
  (`Path.congr`, `Path.update`).

`Buckets next nil label n` is a table whose cells `0 .. n - 1` each carry a label and are
linked into one chain per label in use, the chain of label `c` starting at cell `c`.
Its lemmas say where the chains start: a label in use is a cell that carries its own
label (`Buckets.label_label`), and a cell that carries another label starts no chain
(`Buckets.label_ne_of_ne`).
-/

set_option autoImplicit false

namespace Links

/-- From `i`, following `next` passes the cells `l` in turn and then stands at `j`. -/
def Path (next : Nat → Nat) (i : Nat) (l : List Nat) (j : Nat) : Prop :=
  i :: l.map next = l ++ [j]

/-- The list linked from `i`: the path from `i` to the end marker `nil` that does not
    pass `nil`. -/
def Chain (next : Nat → Nat) (nil i : Nat) (l : List Nat) : Prop :=
  Path next i l nil ∧ nil ∉ l

instance (next : Nat → Nat) (i : Nat) (l : List Nat) (j : Nat) :
    Decidable (Path next i l j) :=
  inferInstanceAs (Decidable (_ = _))

instance (next : Nat → Nat) (nil i : Nat) (l : List Nat) : Decidable (Chain next nil i l) :=
  inferInstanceAs (Decidable (_ ∧ _))

variable {next next' : Nat → Nat} {nil i j k a : Nat} {l l₁ l₂ : List Nat}

/-! ## Paths -/

@[simp] theorem path_nil : Path next i [] j ↔ i = j := by
  simp [Path]

@[simp] theorem path_cons : Path next i (a :: l) k ↔ i = a ∧ Path next (next a) l k := by
  simp [Path]

theorem path_append : Path next i (l₁ ++ l₂) k ↔ ∃ j, Path next i l₁ j ∧ Path next j l₂ k := by
  induction l₁ generalizing i with
  | nil => simp
  | cons b l₁ ih =>
    rw [List.cons_append, path_cons, ih]
    constructor
    · rintro ⟨rfl, j, h₁, h₂⟩
      exact ⟨j, path_cons.2 ⟨rfl, h₁⟩, h₂⟩
    · rintro ⟨j, h₁, h₂⟩
      obtain ⟨rfl, h₁⟩ := path_cons.1 h₁
      exact ⟨rfl, j, h₁, h₂⟩

/-- The last cell of a path links to where the path ends. -/
theorem path_concat : Path next i (l ++ [a]) k ↔ Path next i l a ∧ next a = k := by
  rw [path_append]
  constructor
  · rintro ⟨j, h₁, h₂⟩
    obtain ⟨rfl, h₂⟩ := path_cons.1 h₂
    exact ⟨h₁, path_nil.1 h₂⟩
  · rintro ⟨h₁, h₂⟩
    exact ⟨a, h₁, path_cons.2 ⟨rfl, path_nil.2 h₂⟩⟩

/-- Inside a path, the cell before `a` links to `a`. -/
theorem Path.next_of_getLast? (h : Path next i (l₁ ++ a :: l₂) k) {b : Nat}
    (hb : l₁.getLast? = some b) : next b = a := by
  obtain ⟨l, rfl⟩ := List.getLast?_eq_some_iff.1 hb
  obtain ⟨j, h₁, h₂⟩ := path_append.1 h
  obtain ⟨rfl, -⟩ := path_cons.1 h₂
  exact (path_concat.1 h₁).2

/-- The last cell of a path links to where the path ends. -/
theorem Path.next_of_getLast?_eq (h : Path next i l k) {b : Nat} (hb : l.getLast? = some b) :
    next b = k := by
  obtain ⟨l, rfl⟩ := List.getLast?_eq_some_iff.1 hb
  exact (path_concat.1 h).2

/-- Every cell of a path links to a cell of the path or to where it ends. -/
theorem Path.next_mem (h : Path next i l k) (hb : a ∈ l) : next a ∈ l ++ [k] := by
  have htail : l.map next = (l ++ [k]).tail := by
    rw [← h]
    rfl
  exact List.mem_of_mem_tail (htail ▸ List.mem_map_of_mem hb)

/-- **Frame rule.** A path only reads `next` at its own cells. -/
theorem Path.congr (hl : ∀ b ∈ l, next' b = next b) (h : Path next i l j) :
    Path next' i l j := by
  rw [Path, List.map_congr_left hl]
  exact h

/-! ## Chains -/

@[simp] theorem chain_nil : Chain next nil i [] ↔ i = nil := by
  simp [Chain]

@[simp] theorem chain_cons :
    Chain next nil i (a :: l) ↔ i = a ∧ a ≠ nil ∧ Chain next nil (next a) l := by
  simp only [Chain, path_cons, List.mem_cons, not_or]
  constructor
  · rintro ⟨⟨rfl, hp⟩, ha, hl⟩
    exact ⟨rfl, Ne.symm ha, hp, hl⟩
  · rintro ⟨rfl, ha, hp, hl⟩
    exact ⟨⟨rfl, hp⟩, Ne.symm ha, hl⟩

theorem Chain.path (h : Chain next nil i l) : Path next i l nil := h.1

theorem Chain.not_mem (h : Chain next nil i l) : nil ∉ l := h.2

theorem Chain.congr (hl : ∀ b ∈ l, next' b = next b) (h : Chain next nil i l) :
    Chain next' nil i l :=
  ⟨h.path.congr hl, h.not_mem⟩

/-- A path to `nil` through cells other than `nil` is a chain, and a chain is one that
    ends in its last cell's link. -/
theorem chain_concat :
    Chain next nil i (l ++ [a]) ↔ Path next i l a ∧ next a = nil ∧ a ≠ nil ∧ nil ∉ l := by
  simp only [Chain, path_concat, List.mem_append, List.mem_singleton, not_or]
  constructor
  · rintro ⟨⟨hp, hn⟩, hl, ha⟩
    exact ⟨hp, hn, Ne.symm ha, hl⟩
  · rintro ⟨hp, hn, ha, hl⟩
    exact ⟨⟨hp, hn⟩, hl, Ne.symm ha⟩

/-- **A chain is decided by where it starts.** -/
theorem Chain.unique (h : Chain next nil i l₁) (h' : Chain next nil i l₂) : l₁ = l₂ := by
  induction l₁ generalizing i l₂ with
  | nil =>
    cases l₂ with
    | nil => rfl
    | cons b l₂ =>
      obtain ⟨rfl, hb, -⟩ := chain_cons.1 h'
      exact absurd (chain_nil.1 h) hb
  | cons b l₁ ih =>
    obtain ⟨rfl, hb, h⟩ := chain_cons.1 h
    cases l₂ with
    | nil => exact absurd (chain_nil.1 h') hb
    | cons c l₂ =>
      obtain ⟨rfl, -, h'⟩ := chain_cons.1 h'
      rw [ih h h']

/-- A chain cut before one of its cells: the path up to it, and the chain from it. -/
theorem chain_append_cons :
    Chain next nil i (l₁ ++ a :: l₂) ↔ Path next i l₁ a ∧ Chain next nil a (a :: l₂) ∧ nil ∉ l₁ := by
  simp only [Chain, path_append, List.mem_append, not_or]
  constructor
  · rintro ⟨⟨j, h₁, h₂⟩, hn₁, hn₂⟩
    obtain ⟨rfl, -⟩ := path_cons.1 h₂
    exact ⟨h₁, ⟨h₂, hn₂⟩, hn₁⟩
  · rintro ⟨h₁, ⟨h₂, hn₂⟩, hn₁⟩
    exact ⟨⟨a, h₁, h₂⟩, hn₁, hn₂⟩

/-- Every suffix of a chain is the chain from its first cell. -/
theorem Chain.of_append (h : Chain next nil i (l₁ ++ a :: l₂)) : Chain next nil a (a :: l₂) := by
  obtain ⟨j, -, hj⟩ := path_append.1 h.path
  obtain ⟨rfl, -⟩ := path_cons.1 hj
  exact ⟨hj, fun hn => h.not_mem (List.mem_append_right l₁ hn)⟩

/-- **A chain passes no cell twice**: from a repeated cell the chain would be both the
    rest of the list and a proper suffix of it. -/
theorem Chain.nodup (h : Chain next nil i l) : l.Nodup := by
  induction l generalizing i with
  | nil => exact List.nodup_nil
  | cons b l ih =>
    obtain ⟨rfl, -, hl⟩ := chain_cons.1 h
    refine List.Nodup.cons (fun hbl => ?_) (ih hl)
    obtain ⟨l₁, l₂, rfl⟩ := List.append_of_mem hbl
    have hlen := congrArg List.length (h.unique hl.of_append)
    simp only [List.length_cons, List.length_append] at hlen
    omega

/-- A cell of a chain other than its head has a cell before it. -/
theorem Chain.split_of_mem (h : Chain next nil i l) (ha : a ∈ l) (hai : a ≠ i) :
    ∃ pre p post, l = pre ++ p :: a :: post := by
  obtain ⟨l₁, post, rfl⟩ := List.append_of_mem ha
  have hl₁ : l₁ ≠ [] := by
    rintro rfl
    exact hai (chain_cons.1 h).1.symm
  refine ⟨l₁.dropLast, l₁.getLast hl₁, post, ?_⟩
  conv_lhs => rw [← List.dropLast_append_getLast hl₁]
  simp

/-- A chain from `nil` is empty. -/
@[simp] theorem chain_nil_iff : Chain next nil nil l ↔ l = [] := by
  cases l with
  | nil => simp
  | cons b l =>
    simp only [chain_cons, reduceCtorEq, iff_false, not_and]
    rintro rfl hb
    exact absurd rfl hb

/-- Distinct cells below `n` are at most `n`. -/
theorem length_le_of_nodup {n : Nat} (hnd : l.Nodup) (hl : ∀ b ∈ l, b < n) :
    l.length ≤ n := by
  have hsub : l.Subperm (List.range n) := hnd.subperm fun b hb => List.mem_range.2 (hl b hb)
  simpa using hsub.length_le

/-- A chain through cells below `n` has at most `n` cells. -/
theorem Chain.length_le {n : Nat} (h : Chain next nil i l) (hl : ∀ b ∈ l, b < n) :
    l.length ≤ n :=
  length_le_of_nodup h.nodup hl

/-! ## Tables of chains -/

/-- The cells `live` are linked into one chain per label: the chain from the cell that a
    live cell's label names holds exactly the live cells with that label. -/
def Buckets (next : Nat → Nat) (nil : Nat) (label : Nat → Nat) (live : Nat → Prop) : Prop :=
  ∀ i, live i → ∃ l, Chain next nil (label i) l ∧ ∀ b, b ∈ l ↔ live b ∧ label b = label i

variable {label : Nat → Nat} {live : Nat → Prop}

/-- The chain of a label in use. -/
theorem Buckets.chain_of_label (h : Buckets next nil label live) {c : Nat}
    (hc : ∃ i, live i ∧ label i = c) :
    ∃ l, Chain next nil c l ∧ ∀ b, b ∈ l ↔ live b ∧ label b = c := by
  obtain ⟨i, hi, rfl⟩ := hc
  exact h i hi

/-- A label in use is a live cell, and the cell carries that label: the chain starts
    there. -/
theorem Buckets.label_label (h : Buckets next nil label live) (hi : live i) :
    live (label i) ∧ label (label i) = label i := by
  obtain ⟨l, hl, hmem⟩ := h i hi
  have hne : l ≠ [] := by
    rintro rfl
    exact absurd ((hmem i).2 ⟨hi, rfl⟩) List.not_mem_nil
  obtain ⟨b, l', rfl⟩ := List.exists_cons_of_ne_nil hne
  obtain ⟨rfl, -, -⟩ := chain_cons.1 hl
  exact (hmem _).1 List.mem_cons_self

/-- A cell that carries another label than its own number starts no chain: no live cell
    has its number for label. -/
theorem Buckets.label_ne_of_ne (h : Buckets next nil label live) (hne : label i ≠ i)
    (hj : live j) : label j ≠ i := by
  rintro rfl
  exact hne (h.label_label hj).2

/-- **A table changed at some labels.** The chains of the labels `S` are given anew; a cell
    with another label keeps its label, its liveness and its link, so those labels keep
    their chains. -/
theorem Buckets.of_change {next' label' : Nat → Nat} {live' : Nat → Prop} {S : Nat → Prop}
    (h : Buckets next nil label live)
    (hS : ∀ i, live' i → S (label' i) →
      ∃ l, Chain next' nil (label' i) l ∧ ∀ b, b ∈ l ↔ live' b ∧ label' b = label' i)
    (hout : ∀ b, live' b → ¬S (label' b) → live b ∧ label b = label' b)
    (hin : ∀ b, live b → ¬S (label b) → live' b ∧ label' b = label b ∧ next' b = next b) :
    Buckets next' nil label' live' := by
  intro i hi
  by_cases hs : S (label' i)
  · exact hS i hi hs
  obtain ⟨hli, hlab⟩ := hout i hi hs
  obtain ⟨l, hl, hmem⟩ := h i hli
  have hnot : ∀ b ∈ l, ¬S (label b) := fun b hb => by
    rw [((hmem b).1 hb).2, hlab]
    exact hs
  refine ⟨l, ?_, fun b => ⟨fun hb => ?_, fun ⟨hb, hbl⟩ => ?_⟩⟩
  · rw [← hlab]
    exact hl.congr fun b hb => (hin b ((hmem b).1 hb).1 (hnot b hb)).2.2
  · obtain ⟨hlive, hlab', -⟩ := hin b ((hmem b).1 hb).1 (hnot b hb)
    exact ⟨hlive, by rw [hlab', ((hmem b).1 hb).2, hlab]⟩
  · have hsb : ¬S (label' b) := hbl ▸ hs
    obtain ⟨hlb, hlab'⟩ := hout b hb hsb
    exact (hmem b).2 ⟨hlb, by rw [hlab', hbl, ← hlab]⟩

/-- Labels that agree on the live cells give the same table. -/
theorem Buckets.congr_label {label' : Nat → Nat} (h : Buckets next nil label live)
    (hl : ∀ i, live i → label' i = label i) : Buckets next nil label' live :=
  h.of_change (S := fun _ => False) (fun _ _ h => h.elim)
    (fun b hb _ => ⟨hb, (hl b hb).symm⟩) (fun b hb _ => ⟨hb, hl b hb, rfl⟩)

end Links
