import Mathlib
import AliSql.Mysys.Tree

/-!
# Runs of a `TREE` (`mysys/tree.c`)

`tree_insert` and `tree_delete` keep a `TREE` a red-black search tree whose elements count
the calls made on their keys. The module proves it in three layers:

* what the calls are for, over the in-order list of elements: `Contents` says that a list
  holds, strictly ascending, exactly the keys the calls inserted and did not delete, with
  the counts `inserts_since` gives them, and five lemmas say how an insertion, an update and
  a removal at the right place keep it;
* what each function does to the tree: the descent `search_parents` ends at the element
  of the key or at the sentinel between the keys below and above it, and `tree_insert` and
  `tree_delete` then make one of those edits of the list and leave a balanced tree, with
  the stack never overrun when the tree is at most `MAX_TREE_HEIGHT - 1` deep;
* whole runs (`Tree_reachable`): from `init_tree` through any calls made while
  `elements_in_tree < 2 ^ 31`, `Tree_inv` holds, so the tree stays at most 62 deep and the
  next call stays inside `tree->parents`.

`compare` need only be a strict total order on the keys that the calls use
(`Strict_order_on`).
-/

set_option autoImplicit false

namespace AliSql

open RedBlack (Colour Frame fill before after Balanced Path_balanced toList_fill
  toList_fill_congr)

/-! ## 1. `test_rb_tree` and the red-black property -/

section check

variable {α : Type}

/-- `test_rb_tree` of a balanced tree is its black height. -/
theorem test_rb_tree_of_balanced {t : RedBlack.Tree α} {c : Colour} {n : Nat}
    (h : Balanced t c n) : test_rb_tree t = n := by
  induction h with
  | nil => rfl
  | red hl hr ihl ihr => simp [test_rb_tree, ihl, ihr, hl.colour_eq, hr.colour_eq]
  | black hl hr ihl ihr => simp [test_rb_tree, ihl, ihr]

/-- Conversely, a tree that passes `test_rb_tree` is balanced at the height it returns. -/
theorem balanced_of_test_rb_tree :
    ∀ t : RedBlack.Tree α, 0 ≤ test_rb_tree t → Balanced t t.colour (test_rb_tree t).toNat
  | .nil, _ => .nil
  | .node l c v r, h => by
    by_cases hrr : c = .red ∧ (l.colour = .red ∨ r.colour = .red)
    · simp [test_rb_tree, hrr] at h
    -- the counts of the two sides are equal and nonnegative, or the test returns `-1`
    have hsides : 0 ≤ test_rb_tree l ∧ 0 ≤ test_rb_tree r ∧ test_rb_tree l = test_rb_tree r := by
      by_contra hne
      simp only [test_rb_tree, if_neg hrr] at h
      split_ifs at h with h₁ h₂ <;> omega
    obtain ⟨hl0, hr0, heq⟩ := hsides
    have hl := balanced_of_test_rb_tree l hl0
    have hr := balanced_of_test_rb_tree r hr0
    rw [heq] at hl
    cases c with
    | red =>
      have hlc : l.colour = .black := by cases hlc : l.colour <;> simp_all
      have hrc : r.colour = .black := by cases hrc : r.colour <;> simp_all
      rw [hlc] at hl
      rw [hrc] at hr
      have hval : test_rb_tree (.node l .red v r) = test_rb_tree r := by
        simp [test_rb_tree, hlc, hrc, heq, hr0]
      rw [hval]
      exact .red hl hr
    | black =>
      have hval : test_rb_tree (.node l .black v r) = test_rb_tree r + 1 := by
        simp [test_rb_tree, heq, hr0]
      rw [hval, show (test_rb_tree r + 1).toNat = (test_rb_tree r).toNat + 1 by omega]
      exact .black hl hr

/-- A black root with two red children passes the test, at black height 1. -/
theorem balanced_of_test_rb_tree_three :
    Balanced (.node (.node .nil .red 1 .nil) .black 2 (.node .nil .red 3 .nil) : RedBlack.Tree Nat)
      .black 1 :=
  balanced_of_test_rb_tree _ (by decide)

end check

/-! ## 2. What the calls are for -/

section spec

variable {κ : Type}

/-- `compare` orders the keys of `K` strictly and totally: it is zero exactly on equal keys,
    changes sign when its arguments are swapped, and its negative sign is transitive. -/
structure Strict_order_on (compare : κ → κ → Int) (K : Set κ) : Prop where
  eq_zero_iff : ∀ a ∈ K, ∀ b ∈ K, compare a b = 0 ↔ a = b
  neg_iff : ∀ a ∈ K, ∀ b ∈ K, compare a b < 0 ↔ 0 < compare b a
  trans : ∀ a ∈ K, ∀ b ∈ K, ∀ c ∈ K, compare a b < 0 → compare b c < 0 → compare a c < 0

theorem Strict_order_on.ne_of_neg {compare : κ → κ → Int} {K : Set κ}
    (hK : Strict_order_on compare K) {a b : κ} (ha : a ∈ K) (hb : b ∈ K)
    (h : compare a b < 0) : a ≠ b := by
  rintro rfl
  have := (hK.eq_zero_iff a ha a ha).mpr rfl
  omega

/-- A call of the interface, on a key. -/
inductive Tree_call (κ : Type) where
  | insert (key : κ)
  | delete (key : κ)
  deriving DecidableEq, Repr

def Tree_call.key : Tree_call κ → κ
  | .insert key | .delete key => key

variable [DecidableEq κ]

/-- What the calls `h`, the last first, leave at `key`: `none` when it is not in the tree,
    else the number of `tree_insert` calls on it since the one that created it. With
    `TREE_NO_DUPS` (`no_dups`) an insertion of a present key changes nothing. -/
def inserts_since (no_dups : Bool) : List (Tree_call κ) → κ → Option Nat
  | [], _ => none
  | .insert k :: h, key =>
    if k = key then
      some (match inserts_since no_dups h key with
        | none => 1
        | some c => if no_dups then c else c + 1)
    else inserts_since no_dups h key
  | .delete k :: h, key => if k = key then none else inserts_since no_dups h key

@[simp] theorem inserts_since_nil (no_dups : Bool) (key : κ) :
    inserts_since no_dups ([] : List (Tree_call κ)) key = none := rfl

theorem inserts_since_insert_ne {no_dups : Bool} {h : List (Tree_call κ)} {k key : κ}
    (hk : k ≠ key) : inserts_since no_dups (.insert k :: h) key = inserts_since no_dups h key := by
  simp [inserts_since, hk]

theorem inserts_since_delete_ne {no_dups : Bool} {h : List (Tree_call κ)} {k key : κ}
    (hk : k ≠ key) : inserts_since no_dups (.delete k :: h) key = inserts_since no_dups h key := by
  simp [inserts_since, hk]

@[simp] theorem inserts_since_delete_self (no_dups : Bool) (h : List (Tree_call κ)) (key : κ) :
    inserts_since no_dups (.delete key :: h) key = none := by
  simp [inserts_since]

/-- What the in-order list `L` of a tree should be after the calls `h`: keys in `K`, strictly
    ascending under `compare`, each element present exactly when `inserts_since` counts its
    key, with that count saturated at the 31-bit field's maximum. -/
structure Contents (compare : κ → κ → Int) (K : Set κ) (no_dups : Bool)
    (L : List (Element κ)) (h : List (Tree_call κ)) : Prop where
  mem_K : ∀ e ∈ L, e.key ∈ K
  sorted : (L.map Element.key).Pairwise (fun a b => compare a b < 0)
  count : ∀ e ∈ L, ∃ c, inserts_since no_dups h e.key = some c ∧ e.count = min c (2 ^ 31 - 1)
  complete : ∀ k, (inserts_since no_dups h k).isSome → ∃ e ∈ L, e.key = k

section contents

variable {compare : κ → κ → Int} {K : Set κ} {no_dups : Bool} {h : List (Tree_call κ)}

/-- In a strictly ascending list, an element's key is no other element's. -/
theorem Contents.key_ne (hK : Strict_order_on compare K) {A B : List (Element κ)} {e : Element κ}
    (hc : Contents compare K no_dups (A ++ e :: B) h) : ∀ x ∈ A ++ B, x.key ≠ e.key := by
  have hs := hc.sorted
  simp only [List.map_append, List.map_cons, List.pairwise_append, List.pairwise_cons,
    List.mem_cons, List.mem_map] at hs
  have hmem : ∀ x ∈ A ++ e :: B, x.key ∈ K := hc.mem_K
  intro x hx
  rcases List.mem_append.mp hx with hx | hx
  · exact hK.ne_of_neg (hmem x (by simp [hx])) (hmem e (by simp))
      (hs.2.2 _ ⟨x, hx, rfl⟩ _ (.inl rfl))
  · exact (hK.ne_of_neg (hmem e (by simp)) (hmem x (by simp [hx]))
      (hs.2.1.1 _ ⟨x, hx, rfl⟩)).symm

/-- **Insertion of a new key** between the keys below and above it. -/
theorem Contents.insert_new (hK : Strict_order_on compare K) {A B : List (Element κ)}
    {key : κ} (hc : Contents compare K no_dups (A ++ B) h) (hkey : key ∈ K)
    (hlo : ∀ a ∈ A, compare a.key key < 0) (hhi : ∀ b ∈ B, compare key b.key < 0) :
    Contents compare K no_dups (A ++ ⟨key, 1⟩ :: B) (.insert key :: h) := by
  have hne : ∀ x ∈ A ++ B, x.key ≠ key := by
    intro x hx
    rcases List.mem_append.mp hx with hx | hx
    · exact hK.ne_of_neg (hc.mem_K x (by simp [hx])) hkey (hlo x hx)
    · exact (hK.ne_of_neg hkey (hc.mem_K x (by simp [hx])) (hhi x hx)).symm
  -- the key was not counted: an element of the list would carry it
  have hnone : inserts_since no_dups h key = none := by
    by_contra hsome
    obtain ⟨x, hx, rfl⟩ := hc.complete key (Option.isSome_iff_ne_none.mpr hsome)
    exact hne x hx rfl
  have hself : inserts_since no_dups (.insert key :: h) key = some 1 := by
    simp [inserts_since, hnone]
  refine ⟨?_, ?_, ?_, ?_⟩
  · intro x hx
    rcases List.mem_append.mp hx with hx | hx
    · exact hc.mem_K x (by simp [hx])
    · rcases List.mem_cons.mp hx with rfl | hx
      · exact hkey
      · exact hc.mem_K x (by simp [hx])
  · have hs := hc.sorted
    simp only [List.map_append, List.pairwise_append, List.mem_map] at hs
    simp only [List.map_append, List.map_cons, List.pairwise_append, List.pairwise_cons,
      List.mem_cons, List.mem_map]
    refine ⟨hs.1, ⟨?_, hs.2.1⟩, ?_⟩
    · rintro _ ⟨b, hb, rfl⟩
      exact hhi b hb
    · rintro _ ⟨a, ha, rfl⟩ _ (rfl | ⟨b, hb, rfl⟩)
      · exact hlo a ha
      · exact hs.2.2 _ ⟨a, ha, rfl⟩ _ ⟨b, hb, rfl⟩
  · intro x hx
    rcases List.mem_append.mp hx with hx | hx
    · rw [inserts_since_insert_ne (hne x (by simp [hx])).symm]
      exact hc.count x (by simp [hx])
    · rcases List.mem_cons.mp hx with rfl | hx
      · exact ⟨1, hself, rfl⟩
      · rw [inserts_since_insert_ne (hne x (by simp [hx])).symm]
        exact hc.count x (by simp [hx])
  · intro k hk
    by_cases hkk : key = k
    · exact ⟨⟨key, 1⟩, by simp, hkk⟩
    · rw [inserts_since_insert_ne hkk] at hk
      obtain ⟨x, hx, rfl⟩ := hc.complete k hk
      rcases List.mem_append.mp hx with hx | hx
      · exact ⟨x, by simp [hx], rfl⟩
      · exact ⟨x, by simp [hx], rfl⟩

/-- `count_incr` on a saturated count saturates the next one. -/
theorem count_incr_min (c : Nat) : count_incr (min c (2 ^ 31 - 1)) = min (c + 1) (2 ^ 31 - 1) := by
  simp only [count_incr]
  split_ifs with h <;> omega

/-- **Another insertion of a present key**, without `TREE_NO_DUPS`: its count goes up. -/
theorem Contents.update (hK : Strict_order_on compare K) {A B : List (Element κ)} {e : Element κ}
    (hc : Contents compare K false (A ++ e :: B) h) :
    Contents compare K false (A ++ { e with count := count_incr e.count } :: B)
      (.insert e.key :: h) := by
  have hne := hc.key_ne hK
  obtain ⟨c, hce, hcount⟩ := hc.count e (by simp)
  have hself : inserts_since false (.insert e.key :: h) e.key = some (c + 1) := by
    simp [inserts_since, hce]
  have hold : ∀ x ∈ A ++ B, inserts_since false (.insert e.key :: h) x.key =
      inserts_since false h x.key := fun x hx => inserts_since_insert_ne (hne x hx).symm
  refine ⟨?_, ?_, ?_, ?_⟩
  · intro x hx
    rcases List.mem_append.mp hx with hx | hx
    · exact hc.mem_K x (by simp [hx])
    · rcases List.mem_cons.mp hx with rfl | hx
      · exact hc.mem_K e (by simp)
      · exact hc.mem_K x (by simp [hx])
  · simpa using hc.sorted
  · intro x hx
    rcases List.mem_append.mp hx with hx | hx
    · rw [hold x (by simp [hx])]
      exact hc.count x (by simp [hx])
    · rcases List.mem_cons.mp hx with rfl | hx
      · exact ⟨c + 1, hself, by rw [hcount, count_incr_min]⟩
      · rw [hold x (by simp [hx])]
        exact hc.count x (by simp [hx])
  · intro k hk
    by_cases hkk : e.key = k
    · exact ⟨{ e with count := count_incr e.count }, by simp, hkk⟩
    · rw [inserts_since_insert_ne hkk] at hk
      obtain ⟨x, hx, rfl⟩ := hc.complete k hk
      rcases List.mem_append.mp hx with hx | hx
      · exact ⟨x, by simp [hx], rfl⟩
      · rcases List.mem_cons.mp hx with rfl | hx
        · exact absurd rfl hkk
        · exact ⟨x, by simp [hx], rfl⟩

/-- **Another insertion of a present key** with `TREE_NO_DUPS` counts nothing. -/
theorem Contents.insert_present {L : List (Element κ)} {key : κ}
    (hc : Contents compare K true L h) (hp : ∃ e ∈ L, e.key = key) :
    Contents compare K true L (.insert key :: h) := by
  obtain ⟨e, he, rfl⟩ := hp
  obtain ⟨c, hce, -⟩ := hc.count e he
  have hsame : inserts_since true (.insert e.key :: h) = inserts_since true h := by
    funext k
    by_cases hk : e.key = k
    · subst hk
      simp [inserts_since, hce]
    · exact inserts_since_insert_ne hk
  refine ⟨hc.mem_K, hc.sorted, fun x hx => ?_, fun k hk => ?_⟩
  · rw [hsame]
    exact hc.count x hx
  · rw [hsame] at hk
    exact hc.complete k hk

/-- **Deletion of a present key**: its element leaves the list. -/
theorem Contents.remove (hK : Strict_order_on compare K) {A B : List (Element κ)} {e : Element κ}
    (hc : Contents compare K no_dups (A ++ e :: B) h) :
    Contents compare K no_dups (A ++ B) (.delete e.key :: h) := by
  have hne := hc.key_ne hK
  have hsub : (A ++ B).Sublist (A ++ e :: B) := by simp
  refine ⟨fun x hx => hc.mem_K x (hsub.subset hx), hc.sorted.sublist (hsub.map _), ?_, ?_⟩
  · intro x hx
    rw [inserts_since_delete_ne (hne x hx).symm]
    exact hc.count x (hsub.subset hx)
  · intro k hk
    by_cases hkk : e.key = k
    · subst hkk
      simp at hk
    · rw [inserts_since_delete_ne hkk] at hk
      obtain ⟨x, hx, rfl⟩ := hc.complete k hk
      rcases List.mem_append.mp hx with hx | hx
      · exact ⟨x, by simp [hx], rfl⟩
      · rcases List.mem_cons.mp hx with rfl | hx
        · exact absurd rfl hkk
        · exact ⟨x, by simp [hx], rfl⟩

/-- **Deletion of an absent key** changes nothing. -/
theorem Contents.delete_absent {L : List (Element κ)} {key : κ}
    (hc : Contents compare K no_dups L h) (hn : ∀ e ∈ L, e.key ≠ key) :
    Contents compare K no_dups L (.delete key :: h) := by
  refine ⟨hc.mem_K, hc.sorted, ?_, ?_⟩
  · intro x hx
    rw [inserts_since_delete_ne (hn x hx).symm]
    exact hc.count x hx
  · intro k hk
    by_cases hkk : key = k
    · subst hkk
      simp at hk
    · rw [inserts_since_delete_ne hkk] at hk
      exact hc.complete k hk

end contents

end spec

/-! ## 3. The descent -/

section descent

variable {κ : Type}

/-- **Where the descent ends**: at a hole `q` below `parent`, inside the subtree it started
    from, with every key before the hole below `key` and every key after it above; the
    hole holds the sentinel or the element of `key`. -/
theorem search_parents_spec {compare : κ → κ → Int} {K : Set κ} (hK : Strict_order_on compare K)
    {key : κ} (hkey : key ∈ K) :
    ∀ (t : RedBlack.Tree (Element κ)) (parent : List (Frame (Element κ)))
      {t' : RedBlack.Tree (Element κ)} {p' : List (Frame (Element κ))},
      (∀ e ∈ t.toList, e.key ∈ K) →
      (t.toList.map Element.key).Pairwise (fun a b => compare a b < 0) →
      search_parents compare key t parent = some (t', p') →
      ∃ q, p' = q ++ parent ∧ fill q t' = t ∧ (∀ a ∈ before q, compare a.key key < 0) ∧
        (∀ b ∈ after q, compare key b.key < 0) ∧
        (t' = .nil ∨ ∃ l c e r, t' = .node l c e r ∧ e.key = key)
  | .nil, parent, t', p', _, _, hs => by
    simp only [search_parents, Option.some.injEq, Prod.mk.injEq] at hs
    obtain ⟨rfl, rfl⟩ := hs
    exact ⟨[], rfl, rfl, by simp [before], by simp [after], .inl rfl⟩
  | .node l c e r, parent, t', p', hK', hs', hs => by
    have he : e.key ∈ K := hK' e (by simp)
    -- the node's keys: those of `l` below `e`, those of `r` above
    have hsort := hs'
    simp only [RedBlack.Tree.toList_node, List.map_append, List.map_cons, List.pairwise_append,
      List.pairwise_cons, List.mem_cons, List.mem_map] at hsort
    have hmem : ∀ x ∈ (RedBlack.Tree.node l c e r).toList, x.key ∈ K := hK'
    simp only [RedBlack.Tree.toList_node, List.mem_append, List.mem_cons] at hmem
    simp only [search_parents] at hs
    split_ifs at hs with h0 hlen hneg
    · -- `cmp == 0`: the element of the key
      simp only [Option.some.injEq, Prod.mk.injEq] at hs
      obtain ⟨rfl, rfl⟩ := hs
      exact ⟨[], rfl, rfl, by simp [before], by simp [after],
        .inr ⟨l, c, e, r, rfl, (hK.eq_zero_iff _ he _ hkey).mp h0⟩⟩
    · -- `cmp < 0`: down to the right, past `l` and `e`, all below `key`
      obtain ⟨q, rfl, hq, hlo, hhi, hres⟩ := search_parents_spec hK hkey r _
        (fun x hx => hmem x (.inr (.inr hx))) hsort.2.1.2 hs
      refine ⟨q ++ [.right l c e], by simp, by simp [RedBlack.fill_append, hq], ?_, ?_, hres⟩
      · intro a ha
        simp only [RedBlack.before_append, before, List.nil_append, List.mem_append,
          List.mem_singleton] at ha
        rcases ha with (ha | rfl) | ha
        · exact hK.trans _ (hmem a (.inl ha)) _ he _ hkey
            (hsort.2.2 _ ⟨a, ha, rfl⟩ _ (.inl rfl)) hneg
        · exact hneg
        · exact hlo a ha
      · simpa [RedBlack.after_append, after] using hhi
    · -- `cmp > 0`: down to the left, before `e` and `r`, all above `key`
      obtain ⟨q, rfl, hq, hlo, hhi, hres⟩ := search_parents_spec hK hkey l _
        (fun x hx => hmem x (.inl hx)) hsort.1 hs
      have hgt : compare key e.key < 0 := (hK.neg_iff _ hkey _ he).mpr (by omega)
      refine ⟨q ++ [.left c e r], by simp, by simp [RedBlack.fill_append, hq], ?_, ?_, hres⟩
      · simpa [RedBlack.before_append, before] using hlo
      · intro b hb
        simp only [RedBlack.after_append, after, List.append_nil, List.mem_append,
          List.mem_cons] at hb
        rcases hb with hb | rfl | hb
        · exact hhi b hb
        · exact hgt
        · exact hK.trans _ hkey _ he _ (hmem b (.inr (.inr hb))) hgt
            (hsort.2.1.1 _ ⟨b, hb, rfl⟩)

/-- **The descent stays inside `tree->parents`** when the subtree is shallow enough for the
    stack left: it then returns. -/
theorem search_parents_exists (compare : κ → κ → Int) (key : κ) :
    ∀ (t : RedBlack.Tree (Element κ)) (parent : List (Frame (Element κ))),
      parent.length + t.depth < MAX_TREE_HEIGHT →
      ∃ t' p', search_parents compare key t parent = some (t', p')
  | .nil, parent, _ => ⟨_, _, rfl⟩
  | .node l c e r, parent, hd => by
    simp only [RedBlack.Tree.depth] at hd
    simp only [search_parents]
    split_ifs with h0 hlen hneg
    · exact ⟨_, _, rfl⟩
    · exact search_parents_exists compare key r _ (by simp; omega)
    · exact search_parents_exists compare key l _ (by simp; omega)
    · omega

/-- **The successor's descent**: from a node `t` at the hole of `q₀`, left down to the node
    with no left child, as long as the stack holds the path. -/
theorem successor_spec (above : Nat) :
    ∀ (t : RedBlack.Tree (Element κ)) (q₀ : List (Frame (Element κ))), t ≠ .nil →
      above + q₀.length + t.depth ≤ MAX_TREE_HEIGHT →
      ∃ e c r q, tree_delete.successor above t q₀ = some (e, c, r, q) ∧
        fill q (.node .nil c e r) = fill q₀ t ∧ before q = before q₀
  | .nil, _, hne, _ => absurd rfl hne
  | .node .nil c e r, q₀, _, _ => ⟨e, c, r, q₀, rfl, rfl, rfl⟩
  | .node (.node ll lc lv lr) c e r, q₀, _, hd => by
    simp only [RedBlack.Tree.depth] at hd
    obtain ⟨e', c', r', q, hs, hq, hb⟩ := successor_spec above (.node ll lc lv lr)
      (.left c e r :: q₀) (by simp) (by simp [RedBlack.Tree.depth]; omega)
    refine ⟨e', c', r', q, ?_, by simpa using hq, by simpa [before] using hb⟩
    simp only [tree_delete.successor]
    rw [if_pos (by omega)]
    exact hs

end descent

/-! ## 4. Taking a node out -/

section unlink

variable {α : Type}

/-- A node with a missing child, balanced: a black one over a child of black height 0, or a
    red leaf. -/
theorem unlinked_child {x : RedBlack.Tree α} {c : Colour} {v : α} {k : Nat}
    (h : Balanced (.node .nil c v x) c k ∨ Balanced (.node x c v .nil) c k) :
    (c = .black ∧ k = 1 ∧ ∃ c', Balanced x c' 0) ∨ (c = .red ∧ k = 0 ∧ x = .nil) := by
  rcases h with h | h
  · cases h with
    | red hl hr =>
      cases hl
      exact .inr ⟨rfl, rfl, hr.eq_nil_of_black_zero⟩
    | black hl hr =>
      cases hl
      exact .inl ⟨rfl, rfl, _, hr⟩
  · cases h with
    | red hl hr =>
      cases hr
      exact .inr ⟨rfl, rfl, hl.eq_nil_of_black_zero⟩
    | black hl hr =>
      cases hr
      exact .inl ⟨rfl, rfl, _, hl⟩

/-- A tree of black height 0 is short of nothing: it is empty or a red leaf. -/
theorem Short.of_height_zero {x : RedBlack.Tree α} {c : Colour} (h : Balanced x c 0) :
    Short x 0 := by
  cases h with
  | nil => exact .inl .nil
  | red hl hr => exact .inr ⟨_, _, _, _, _, rfl, hl, hr⟩

/-- **Taking out a node with a missing child** from its place `P`: its other child `x` takes
    the place, and a black node starts `rb_delete_fixup` there. The tree keeps its order
    and comes out balanced. -/
theorem unlink_spec {x : RedBlack.Tree α} {c : Colour} {v : α} {P : List (Frame α)} {k : Nat}
    (h : Balanced (.node .nil c v x) c k ∨ Balanced (.node x c v .nil) c k)
    (hP : Path_balanced P c k) (hlen : P.length + 1 < MAX_TREE_HEIGHT) :
    ∃ t, (if c = .black then rb_delete_fixup x P else some (fill P x)) = some t ∧
      t.toList = (fill P x).toList ∧ ∃ m, Balanced t .black m := by
  rcases unlinked_child h with ⟨rfl, rfl, c', hx⟩ | ⟨rfl, rfl, rfl⟩
  · simpa using rb_delete_fixup_spec P x (Short.of_height_zero hx) hP hlen
  · exact ⟨_, rfl, rfl, hP.black_of_red.fill .nil⟩

end unlink

/-! ## 5. `tree_insert` and `tree_delete` -/

section calls

variable {κ : Type}

/-- The last step of `tree_delete`: the tree the choice between `rb_delete_fixup` and a plain
    relink makes, passed on. -/
theorem ite_bind_eq_some {β γ : Type} {c : Prop} [Decidable c] {a : Option β} {b t : β}
    {f : β → Option γ} (h : (if c then a else some b) = some t) :
    (if c then a.bind f else f b) = f t := by
  split_ifs at h ⊢
  · rw [h]
    rfl
  · cases h
    rfl

/-- **A new key**: the descent ended at the sentinel in a place that takes a black leaf;
    `rb_insert` puts the new element there and repairs the tree. -/
theorem tree_insert_new {tree : TREE κ} {key : κ} {p : List (Frame (Element κ))}
    (hs : search_parents tree.compare key tree.root [] = some (.nil, p))
    (hp : Path_balanced p .black 0) :
    ∃ root, tree_insert tree key =
        some ({ tree with root := root, elements_in_tree := (tree.elements_in_tree + 1) % 2 ^ 32 },
          some ⟨key, 1⟩) ∧
      root.toList = before p ++ ⟨key, 1⟩ :: after p ∧ ∃ m, Balanced root .black m := by
  obtain ⟨t, ht, hl, hb⟩ := rb_insert_loop_spec (.node .nil .red ⟨key, 1⟩ .nil) p
    (.red .nil .nil) (Ins_place.of_black hp)
  refine ⟨t, ?_, by simp [hl, toList_fill], hb⟩
  simp [tree_insert, hs, rb_insert, ht]

/-- **A present key**: `tree_delete` takes its element out of the list, and the tree comes
    out balanced; the stack holds every path it follows in a tree at most
    `MAX_TREE_HEIGHT - 1` deep. -/
theorem tree_delete_found {tree : TREE κ} {key : κ} {l r : RedBlack.Tree (Element κ)}
    {c : Colour} {e : Element κ} {p : List (Frame (Element κ))} {N : Nat}
    (hwd : tree.with_delete = true)
    (hs : search_parents tree.compare key tree.root [] = some (.node l c e r, p))
    (hfill : fill p (.node l c e r) = tree.root) (hb : Balanced tree.root .black N)
    (hd : tree.root.depth < MAX_TREE_HEIGHT) :
    ∃ root, tree_delete tree key =
        some ({ tree with root := root,
                          elements_in_tree := (tree.elements_in_tree + 2 ^ 32 - 1) % 2 ^ 32 }, 0) ∧
      root.toList = before p ++ l.toList ++ r.toList ++ after p ∧ ∃ m, Balanced root .black m := by
  rw [← hfill] at hb hd
  obtain ⟨c₀, k, hnode, hP⟩ := hb.unfill
  have hc₀ : c₀ = c := hnode.colour_eq.symm
  subst hc₀
  have hdp := RedBlack.depth_fill p (.node l c₀ e r)
  simp only [RedBlack.Tree.depth] at hdp
  cases l with
  | nil =>
    -- `element->left == null_element`: the right child takes its place
    obtain ⟨t, ht, hl, hb'⟩ := unlink_spec (.inl hnode) hP (by omega)
    refine ⟨t, ?_, by simp [hl, toList_fill], hb'⟩
    simp only [tree_delete, hwd, hs, Bool.not_true, Bool.false_eq_true, if_false,
      Option.bind_eq_bind, Option.bind_some]
    exact ite_bind_eq_some ht
  | node ll lc lv lr =>
    cases r with
    | nil =>
      obtain ⟨t, ht, hl, hb'⟩ := unlink_spec (.inr hnode) hP (by omega)
      refine ⟨t, ?_, by simp [hl, toList_fill], hb'⟩
      simp only [tree_delete, hwd, hs, Bool.not_true, Bool.false_eq_true, if_false,
        Option.bind_eq_bind, Option.bind_some]
      exact ite_bind_eq_some ht
    | node rl rc rv rr =>
      -- two children: the successor `n`, the leftmost node of the right subtree, takes the
      -- element's place, and its right child takes the successor's
      obtain ⟨n, nc, nr, q, hsucc, hq, hbq⟩ := successor_spec (p.length + 1)
        (.node rl rc rv rr) [] (by simp) (by simp only [RedBlack.Tree.depth] at hdp ⊢; simp; omega)
      simp only [fill, before] at hq hbq
      set L := RedBlack.Tree.node ll lc lv lr
      set R := RedBlack.Tree.node rl rc rv rr
      have hpath : fill (q ++ .right L c₀ n :: p) (.node .nil nc n nr) =
          fill p (.node L c₀ n R) := by
        simp [RedBlack.fill_append, hq]
      -- the successor's place in the tree with `n` for the element's value
      obtain ⟨m, hm⟩ := hP.fill hnode.replace_value
      rw [← hpath] at hm
      obtain ⟨c₁, k₁, hnode', hP'⟩ := hm.unfill
      have hc₁ : c₁ = nc := hnode'.colour_eq.symm
      subst hc₁
      have hdq := RedBlack.depth_fill (q ++ .right L c₀ e :: p) (.node .nil c₁ n nr)
      rw [RedBlack.fill_append] at hdq
      simp only [RedBlack.fill_cons, RedBlack.Frame.fill_right, hq, List.length_append,
        List.length_cons, RedBlack.Tree.depth] at hdq
      obtain ⟨t, ht, hl, hb'⟩ := unlink_spec (.inl hnode') hP' (by simp; omega)
      have hlt : p.length + 1 < MAX_TREE_HEIGHT := by omega
      refine ⟨t, ?_, ?_, hb'⟩
      · simp only [tree_delete, hwd, hs, Bool.not_true, Bool.false_eq_true, if_false,
          Option.bind_eq_bind, Option.bind_some, if_pos hlt, hsucc]
        exact ite_bind_eq_some ht
      · rw [hl, toList_fill, ← hq, toList_fill]
        simp [RedBlack.before_append, RedBlack.after_append, before, after, hbq]

/-- **A present key**: the descent ended at its element, which `tree_insert` returns counted
    once more, or, with `TREE_NO_DUPS`, leaves alone and returns `NULL`. -/
theorem tree_insert_found {tree : TREE κ} {key : κ} {l r : RedBlack.Tree (Element κ)}
    {c : Colour} {e : Element κ} {p : List (Frame (Element κ))}
    (hs : search_parents tree.compare key tree.root [] = some (.node l c e r, p)) :
    tree_insert tree key =
      if tree.flag &&& TREE_NO_DUPS ≠ 0 then some (tree, none)
      else some ({ tree with root := fill p (.node l c { e with count := count_incr e.count } r) },
        some { e with count := count_incr e.count }) := by
  simp [tree_insert, hs]

end calls

/-! ## 6. Runs -/

section runs

variable {κ : Type}

/-- The tree a call leaves. -/
def TREE.call (tree : TREE κ) : Tree_call κ → Option (TREE κ)
  | .insert key => (tree_insert tree key).map Prod.fst
  | .delete key => (tree_delete tree key).map Prod.fst

/-- The runs the invariant covers: from `init_tree(compare, with_delete= TRUE)` with `flag`
    set, calls on keys of `K`, each made while `elements_in_tree < 2 ^ 31`; `h` lists the
    calls made, the last first. -/
inductive Tree_reachable (compare : κ → κ → Int) (flag : Nat) (K : Set κ) :
    TREE κ → List (Tree_call κ) → Prop
  | init : Tree_reachable compare flag K { init_tree compare true with flag := flag } []
  | call {t t' : TREE κ} {h : List (Tree_call κ)} {c : Tree_call κ} :
      Tree_reachable compare flag K t h → c.key ∈ K → t.elements_in_tree < 2 ^ 31 →
      t.call c = some t' → Tree_reachable compare flag K t' (c :: h)

variable [DecidableEq κ]

/-- The invariant of a run: the fields the calls never change, a balanced tree of at most
    `2 ^ 31` elements counted by `elements_in_tree`, and the in-order list the calls `h`
    call for. -/
structure Tree_inv (compare : κ → κ → Int) (flag : Nat) (K : Set κ) (t : TREE κ)
    (h : List (Tree_call κ)) : Prop where
  compare_eq : t.compare = compare
  flag_eq : t.flag = flag
  with_delete : t.with_delete = true
  balanced : ∃ n, Balanced t.root .black n
  contents : Contents compare K (flag &&& TREE_NO_DUPS != 0) t.root.toList h
  elements_eq : t.elements_in_tree = t.root.size
  size_le : t.root.size ≤ 2 ^ 31

variable {compare : κ → κ → Int} {flag : Nat} {K : Set κ} {t : TREE κ} {h : List (Tree_call κ)}

theorem Tree_inv.init : Tree_inv compare flag K { init_tree compare true with flag := flag } [] where
  compare_eq := rfl
  flag_eq := rfl
  with_delete := rfl
  balanced := ⟨0, .nil⟩
  contents := ⟨by simp [init_tree], by simp [init_tree], by simp [init_tree], by simp⟩
  elements_eq := rfl
  size_le := Nat.zero_le _

/-- A tree of at most `2 ^ 31` elements is at most 62 deep, within the stack. -/
theorem Tree_inv.depth_lt (hi : Tree_inv compare flag K t h) : t.root.depth < MAX_TREE_HEIGHT := by
  obtain ⟨n, hb⟩ := hi.balanced
  have hsize := hi.size_le
  have := RedBlack.depth_le_of_size_lt (k := 31) hb (by norm_num at hsize ⊢; omega)
  simp only [MAX_TREE_HEIGHT]
  omega

/-- The descent from the root ends at the element of `key` or between the keys around it. -/
theorem Tree_inv.search (hK : Strict_order_on compare K) (hi : Tree_inv compare flag K t h)
    {key : κ} (hkey : key ∈ K) :
    ∃ t₀ p, search_parents t.compare key t.root [] = some (t₀, p) ∧ fill p t₀ = t.root ∧
      (∀ a ∈ before p, compare a.key key < 0) ∧ (∀ b ∈ after p, compare key b.key < 0) ∧
      (t₀ = .nil ∨ ∃ l c e r, t₀ = .node l c e r ∧ e.key = key) := by
  obtain ⟨t₀, p, hs⟩ := search_parents_exists t.compare key t.root [] (by simpa using hi.depth_lt)
  refine ⟨t₀, p, hs, ?_⟩
  rw [hi.compare_eq] at hs
  obtain ⟨q, rfl, hq, hlo, hhi, hres⟩ :=
    search_parents_spec hK hkey t.root [] hi.contents.mem_K hi.contents.sorted hs
  simp only [List.append_nil] at hq hlo hhi ⊢
  exact ⟨hq, hlo, hhi, hres⟩

/-- A key of the list is found: the descent ends at its element. -/
theorem Tree_inv.search_present (hK : Strict_order_on compare K) (hi : Tree_inv compare flag K t h)
    {key : κ} (hp : ∃ e ∈ t.root.toList, e.key = key) :
    ∃ l c e r p, search_parents t.compare key t.root [] = some (.node l c e r, p) ∧
      fill p (.node l c e r) = t.root ∧ e.key = key := by
  obtain ⟨x, hx, rfl⟩ := hp
  have hxK := hi.contents.mem_K x hx
  obtain ⟨t₀, p, hs, hfill, hlo, hhi, hres⟩ := hi.search hK hxK
  rcases hres with rfl | ⟨l, c, e, r, rfl, he⟩
  · -- the sentinel: every key of the list compares unequal to `x.key`
    rw [← hfill, toList_fill] at hx
    simp only [RedBlack.Tree.toList_nil, List.append_nil, List.mem_append] at hx
    rcases hx with hx | hx
    · exact absurd rfl (hK.ne_of_neg hxK hxK (hlo x hx))
    · exact absurd rfl (hK.ne_of_neg hxK hxK (hhi x hx))
  · exact ⟨l, c, e, r, p, hs, hfill, he⟩

/-- The number of elements is the length of the in-order list. -/
theorem size_eq_length {α : Type} (t : RedBlack.Tree α) {L : List α} (h : t.toList = L) : t.size = L.length := by
  rw [← RedBlack.Tree.length_toList, h]

/-- **One `tree_insert`** from a tree in `Tree_inv` stays inside the stack, and, made while
    `elements_in_tree < 2 ^ 31`, keeps the invariant. -/
theorem Tree_inv.insert (hK : Strict_order_on compare K) (hi : Tree_inv compare flag K t h)
    {key : κ} (hkey : key ∈ K) :
    ∃ t' r, tree_insert t key = some (t', r) ∧
      (t.elements_in_tree < 2 ^ 31 → Tree_inv compare flag K t' (.insert key :: h)) := by
  obtain ⟨t₀, p, hs, hfill, hlo, hhi, hres⟩ := hi.search hK hkey
  obtain ⟨n, hb⟩ := hi.balanced
  rw [← hfill] at hb
  obtain ⟨c₀, k, hnode, hP⟩ := hb.unfill
  rcases hres with rfl | ⟨l, c, e, r, rfl, rfl⟩
  · -- a new key: the sentinel's place takes a black tree of height 0
    cases hnode
    obtain ⟨root, hins, hlist, hb'⟩ := tree_insert_new hs hP
    refine ⟨_, _, hins, fun hel => ?_⟩
    have hL : t.root.toList = before p ++ after p := by simp [← hfill, toList_fill]
    have hsize := size_eq_length _ hL
    have hsize' := size_eq_length _ hlist
    have hel' := hi.elements_eq
    simp only [List.length_append, List.length_cons] at hsize hsize'
    refine ⟨hi.compare_eq, hi.flag_eq, hi.with_delete, hb', ?_, ?_, ?_⟩
    · rw [hlist]
      exact (hL ▸ hi.contents).insert_new hK hkey hlo hhi
    · norm_num at hel ⊢
      omega
    · norm_num at hel ⊢
      omega
  · have hL : t.root.toList = (before p ++ l.toList) ++ e :: (r.toList ++ after p) := by
      simp [← hfill, toList_fill]
    by_cases hnd : t.flag &&& TREE_NO_DUPS ≠ 0
    · -- `TREE_NO_DUPS`: `NULL`, and nothing changes
      refine ⟨t, none, by rw [tree_insert_found hs, if_pos hnd], fun _ => { hi with contents := ?_ }⟩
      have hnd' : (flag &&& TREE_NO_DUPS != 0) = true := by simpa [← hi.flag_eq] using hnd
      have hc := hi.contents
      rw [hnd'] at hc ⊢
      exact hc.insert_present ⟨e, by simp [hL], rfl⟩
    · -- the element's count goes up; the tree keeps its shape
      refine ⟨_, _, by rw [tree_insert_found hs, if_neg hnd], fun _ => ?_⟩
      have hnd' : (flag &&& TREE_NO_DUPS != 0) = false := by simpa [← hi.flag_eq] using hnd
      have hlist : (fill p (.node l c { e with count := count_incr e.count } r)).toList =
          (before p ++ l.toList) ++ { e with count := count_incr e.count } :: (r.toList ++ after p) := by
        simp [toList_fill]
      have hsize := size_eq_length _ hL
      have hsize' := size_eq_length _ hlist
      have hel' := hi.elements_eq
      simp only [List.length_append, List.length_cons] at hsize hsize'
      refine ⟨hi.compare_eq, hi.flag_eq, hi.with_delete, hP.fill hnode.replace_value, ?_, ?_, ?_⟩
      · have hc := hi.contents
        rw [hnd', hL] at hc
        rw [hnd', hlist]
        exact hc.update hK
      · simp only
        omega
      · have := hi.size_le
        simp only
        omega

/-- **One `tree_delete`** from a tree in `Tree_inv` stays inside the stack and keeps the
    invariant. -/
theorem Tree_inv.delete (hK : Strict_order_on compare K) (hi : Tree_inv compare flag K t h)
    {key : κ} (hkey : key ∈ K) :
    ∃ t' r, tree_delete t key = some (t', r) ∧ Tree_inv compare flag K t' (.delete key :: h) := by
  obtain ⟨t₀, p, hs, hfill, hlo, hhi, hres⟩ := hi.search hK hkey
  rcases hres with rfl | ⟨l, c, e, r, rfl, rfl⟩
  · -- not in the tree: `tree_delete` returns 1 and changes nothing
    have hdel : tree_delete t key = some (t, 1) := by
      simp only [tree_delete, hi.with_delete, hs, Bool.not_true, Bool.false_eq_true, if_false,
        Option.bind_eq_bind, Option.bind_some]
    refine ⟨t, 1, hdel, { hi with contents := ?_ }⟩
    refine hi.contents.delete_absent fun x hx hxk => ?_
    have hxK := hi.contents.mem_K x hx
    rw [← hfill, toList_fill] at hx
    simp only [RedBlack.Tree.toList_nil, List.append_nil, List.mem_append] at hx
    rcases hx with hx | hx
    · exact hK.ne_of_neg hxK hkey (hlo x hx) hxk
    · exact hK.ne_of_neg hkey hxK (hhi x hx) hxk.symm
  · obtain ⟨n, hb⟩ := hi.balanced
    obtain ⟨root, hdel, hlist, hb'⟩ := tree_delete_found hi.with_delete hs hfill hb hi.depth_lt
    refine ⟨_, _, hdel, ?_⟩
    have hL : t.root.toList = (before p ++ l.toList) ++ e :: (r.toList ++ after p) := by
      simp [← hfill, toList_fill]
    have hsize := size_eq_length _ hL
    have hsize' := size_eq_length _ hlist
    have hel' := hi.elements_eq
    have hle : t.root.size ≤ 2147483648 := hi.size_le
    simp only [List.length_append, List.length_cons] at hsize hsize'
    refine ⟨hi.compare_eq, hi.flag_eq, hi.with_delete, hb', ?_, ?_, ?_⟩
    · have hc := hi.contents
      rw [hL] at hc
      rw [hlist, List.append_assoc]
      exact hc.remove hK
    · show (t.elements_in_tree + 4294967296 - 1) % 4294967296 = root.size
      omega
    · show root.size ≤ 2147483648
      omega

/-- **One call** stays inside the stack and, made while `elements_in_tree < 2 ^ 31`, keeps
    the invariant. -/
theorem Tree_inv.call (hK : Strict_order_on compare K) (hi : Tree_inv compare flag K t h)
    {c : Tree_call κ} (hc : c.key ∈ K) :
    ∃ t', t.call c = some t' ∧
      (t.elements_in_tree < 2 ^ 31 → Tree_inv compare flag K t' (c :: h)) := by
  cases c with
  | insert key =>
    obtain ⟨t', r, hins, hinv⟩ := hi.insert hK (show key ∈ K from hc)
    exact ⟨t', by simp [TREE.call, hins], hinv⟩
  | delete key =>
    obtain ⟨t', r, hdel, hinv⟩ := hi.delete hK (show key ∈ K from hc)
    exact ⟨t', by simp [TREE.call, hdel], fun _ => hinv⟩

/-- **The invariant of every run.** -/
theorem Tree_inv.of_reachable (hK : Strict_order_on compare K)
    (hr : Tree_reachable compare flag K t h) : Tree_inv compare flag K t h := by
  induction hr with
  | init => exact Tree_inv.init
  | call _ hc hel hcall ih =>
    obtain ⟨t', hcall', hinv⟩ := ih.call hK hc
    rw [hcall] at hcall'
    cases hcall'
    exact hinv hel

/-- **A `TREE` stays a red-black search tree inside its stack.** Along every run of
    `tree_insert` and `tree_delete` calls made while `elements_in_tree < 2 ^ 31`, with keys on
    which `compare` is a strict total order: the tree passes `test_rb_tree` with a black root;
    its keys ascend strictly and are those inserted and not deleted; each count is the number
    of insertions since the key's, saturated at `2 ^ 31 - 1`; with `TREE_NO_DUPS` an insertion
    of a present key returns `NULL` and changes nothing; `elements_in_tree` counts the
    elements; and the next call stays inside `tree->parents`. -/
theorem tree_red_black_search_tree (hK : Strict_order_on compare K)
    (hr : Tree_reachable compare flag K t h) :
    t.root.colour = .black ∧ 0 ≤ test_rb_tree t.root ∧
      (t.root.toList.map Element.key).Pairwise (fun a b => compare a b < 0) ∧
      (∀ k, (∃ e ∈ t.root.toList, e.key = k) ↔
        (inserts_since (flag &&& TREE_NO_DUPS != 0) h k).isSome) ∧
      (∀ e ∈ t.root.toList, ∃ c, inserts_since (flag &&& TREE_NO_DUPS != 0) h e.key = some c ∧
        e.count = min c (2 ^ 31 - 1)) ∧
      (flag &&& TREE_NO_DUPS ≠ 0 → ∀ key, (∃ e ∈ t.root.toList, e.key = key) →
        tree_insert t key = some (t, none)) ∧
      t.elements_in_tree = t.root.size ∧
      (t.elements_in_tree < 2 ^ 31 → ∀ key ∈ K,
        (tree_insert t key).isSome ∧ (tree_delete t key).isSome) := by
  have hi := Tree_inv.of_reachable hK hr
  obtain ⟨n, hb⟩ := hi.balanced
  refine ⟨hb.colour_eq, by rw [test_rb_tree_of_balanced hb]; omega, hi.contents.sorted,
    fun k => ⟨?_, hi.contents.complete k⟩, hi.contents.count, ?_, hi.elements_eq, ?_⟩
  · rintro ⟨e, he, rfl⟩
    obtain ⟨c, hc, -⟩ := hi.contents.count e he
    simp [hc]
  · intro hnd key hp
    obtain ⟨l, c, e, r, p, hs, -, -⟩ := hi.search_present hK hp
    rw [tree_insert_found hs, if_pos (hi.flag_eq ▸ hnd)]
  · intro _ key hkey
    obtain ⟨t', r, hins, -⟩ := hi.insert hK hkey
    obtain ⟨t'', r', hdel, -⟩ := hi.delete hK hkey
    simp [hins, hdel]

/-- Natural numbers under the comparator `a - b`. -/
theorem nat_sub_strict_order : Strict_order_on (fun a b : Nat => (a : Int) - b) Set.univ :=
  ⟨fun _ _ _ _ => by omega, fun _ _ _ _ => by omega, fun _ _ _ _ _ _ => by omega⟩

theorem tree_red_black_search_tree_two_inserts :
    ∃ t, Tree_reachable (fun a b : Nat => (a : Int) - b) 0 Set.univ t [.insert 1, .insert 2] ∧
      (t.root.colour = .black ∧ 0 ≤ test_rb_tree t.root ∧
      (t.root.toList.map Element.key).Pairwise (fun a b : Nat => (a : Int) - b < 0) ∧
      (∀ k, (∃ e ∈ t.root.toList, e.key = k) ↔
        (inserts_since (0 &&& TREE_NO_DUPS != 0) [.insert 1, .insert 2] k).isSome) ∧
      (∀ e ∈ t.root.toList, ∃ c,
        inserts_since (0 &&& TREE_NO_DUPS != 0) [.insert 1, .insert 2] e.key = some c ∧
        e.count = min c (2 ^ 31 - 1)) ∧
      (0 &&& TREE_NO_DUPS ≠ 0 → ∀ key, (∃ e ∈ t.root.toList, e.key = key) →
        tree_insert t key = some (t, none)) ∧
      t.elements_in_tree = t.root.size ∧
      (t.elements_in_tree < 2 ^ 31 → ∀ key ∈ (Set.univ : Set Nat),
        (tree_insert t key).isSome ∧ (tree_delete t key).isSome)) := by
  have hr : Tree_reachable (fun a b : Nat => (a : Int) - b) 0 Set.univ _ [.insert 1, .insert 2] :=
    .call (.call .init (Set.mem_univ _) (by decide) rfl) (Set.mem_univ _) (by decide) rfl
  exact ⟨_, hr, tree_red_black_search_tree nat_sub_strict_order hr⟩

end runs

end AliSql
