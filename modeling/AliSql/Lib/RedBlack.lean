import Mathlib

/-!
# Red-black trees and paths into them

A red-black tree is a binary tree whose nodes are red or black, in which no red node has a
red child and every path from the root down passes the same number of black nodes. Code
that rebalances such a tree in place works at one node at a time, reached from the root by
a path; the rotations and recolourings it makes there are local, and what they do to the
whole tree follows from what they do to the subtree at the end of the path. A path here is
the list of frames from the hole up to the root, each frame a node with the hole as one of
its children (`Frame`), and `fill` puts a subtree back into the hole.

What the module proves, for any type of values:

* `toList_fill`: the in-order list of a filled path is the values before the hole, the
  subtree's and the values after it;
* `Balanced t c n`: `t` has root colour `c` and black height `n` and no red node over a red
  one. `Path_balanced p c n`: the hole of `p` takes a `Balanced _ c n` tree, and then the
  whole tree is balanced with a black root (`Path_balanced.fill`); `descend_left` and
  `descend_right` walk such a path one node down;
* `Balanced.depth_le`, `Balanced.two_pow_le` and `depth_le_of_size_lt`: a black-rooted
  balanced tree of fewer than `2 ^ (k + 1) - 1` nodes is at most `2 k` deep, and `depth_fill` bounds
  the length of a path by the depth of the tree it runs in.

The empty tree counts as black.
-/

set_option autoImplicit false

namespace RedBlack

/-- The colour of a node. -/
inductive Colour where
  | red
  | black
  deriving DecidableEq, Repr

/-- A binary tree whose nodes carry a colour and a value. -/
inductive Tree (α : Type) where
  | nil
  | node (l : Tree α) (c : Colour) (v : α) (r : Tree α)
  deriving DecidableEq, Repr

namespace Tree

variable {α : Type}

/-- The colour of the root; the empty tree is black. -/
def colour : Tree α → Colour
  | nil => .black
  | node _ c _ _ => c

/-- The tree with its root painted `c`; the empty tree stays as it is. -/
def paint (c : Colour) : Tree α → Tree α
  | nil => nil
  | node l _ v r => node l c v r

/-- The values in order, the left subtree's first. -/
def toList : Tree α → List α
  | nil => []
  | node l _ v r => l.toList ++ v :: r.toList

/-- The number of nodes. -/
def size : Tree α → Nat
  | nil => 0
  | node l _ _ r => l.size + 1 + r.size

/-- The number of nodes on the longest path down from the root. -/
def depth : Tree α → Nat
  | nil => 0
  | node l _ _ r => max l.depth r.depth + 1

@[simp] theorem toList_nil : (nil : Tree α).toList = [] := rfl

@[simp] theorem toList_node (l : Tree α) (c : Colour) (v : α) (r : Tree α) :
    (node l c v r).toList = l.toList ++ v :: r.toList := rfl

@[simp] theorem paint_node (c c' : Colour) (l r : Tree α) (v : α) :
    (node l c' v r).paint c = node l c v r := rfl

@[simp] theorem paint_nil (c : Colour) : (nil : Tree α).paint c = nil := rfl

@[simp] theorem colour_node (l r : Tree α) (c : Colour) (v : α) : (node l c v r).colour = c := rfl

@[simp] theorem toList_paint (c : Colour) (t : Tree α) : (t.paint c).toList = t.toList := by
  cases t <;> rfl

@[simp] theorem length_toList (t : Tree α) : t.toList.length = t.size := by
  induction t with
  | nil => rfl
  | node l c v r ihl ihr =>
    simp only [toList_node, List.length_append, List.length_cons, ihl, ihr, size]
    omega

end Tree

variable {α : Type}

/-! ## 1. Paths -/

/-- A node with one child taken out: `left c v r` is `node _ c v r`, the hole on the left;
    `right l c v` is `node l c v _`, the hole on the right. -/
inductive Frame (α : Type) where
  | left (c : Colour) (v : α) (r : Tree α)
  | right (l : Tree α) (c : Colour) (v : α)
  deriving DecidableEq, Repr

namespace Frame

/-- The frame's node with `t` in the hole. -/
def fill : Frame α → Tree α → Tree α
  | left c v r, t => .node t c v r
  | right l c v, t => .node l c v t

/-- The colour of the frame's node. -/
def colour : Frame α → Colour
  | left c _ _ => c
  | right _ c _ => c

/-- The frame's other child, the hole's sibling. -/
def other : Frame α → Tree α
  | left _ _ r => r
  | right l _ _ => l

@[simp] theorem fill_left (c : Colour) (v : α) (r t : Tree α) : (left c v r).fill t = .node t c v r :=
  rfl

@[simp] theorem fill_right (l : Tree α) (c : Colour) (v : α) (t : Tree α) :
    (right l c v).fill t = .node l c v t := rfl

@[simp] theorem other_left (c : Colour) (v : α) (r : Tree α) : (left c v r).other = r := rfl

@[simp] theorem other_right (l : Tree α) (c : Colour) (v : α) : (right l c v).other = l := rfl

@[simp] theorem colour_left (c : Colour) (v : α) (r : Tree α) : (left c v r).colour = c := rfl

@[simp] theorem colour_right (l : Tree α) (c : Colour) (v : α) : (right l c v).colour = c := rfl

end Frame

/-- The tree a path of frames, the hole's parent first, makes with `t` in the hole. -/
def fill : List (Frame α) → Tree α → Tree α
  | [], t => t
  | f :: p, t => fill p (f.fill t)

/-- The values that come before the hole, in order. -/
def before : List (Frame α) → List α
  | [] => []
  | .left _ _ _ :: p => before p
  | .right l _ v :: p => before p ++ l.toList ++ [v]

/-- The values that come after the hole, in order. -/
def after : List (Frame α) → List α
  | [] => []
  | .left _ v r :: p => v :: r.toList ++ after p
  | .right _ _ _ :: p => after p

@[simp] theorem fill_nil (t : Tree α) : fill [] t = t := rfl

@[simp] theorem fill_cons (f : Frame α) (p : List (Frame α)) (t : Tree α) :
    fill (f :: p) t = fill p (f.fill t) := rfl

theorem fill_append (p q : List (Frame α)) (t : Tree α) : fill (p ++ q) t = fill q (fill p t) := by
  induction p generalizing t with
  | nil => rfl
  | cons f p ih => exact ih (f.fill t)

/-- **The in-order list of a filled path**: the hole's subtree stands between the values
    the path puts before it and those it puts after it. -/
theorem toList_fill (p : List (Frame α)) (t : Tree α) :
    (fill p t).toList = before p ++ t.toList ++ after p := by
  induction p generalizing t with
  | nil => simp [before, after]
  | cons f p ih =>
    cases f <;> simp [Frame.fill, before, after, ih]

theorem before_append (p q : List (Frame α)) : before (p ++ q) = before q ++ before p := by
  induction p with
  | nil => simp [before]
  | cons f p ih => cases f <;> simp [before, ih]

theorem after_append (p q : List (Frame α)) : after (p ++ q) = after p ++ after q := by
  induction p with
  | nil => simp [after]
  | cons f p ih => cases f <;> simp [after, ih]

theorem toList_fill_congr (p : List (Frame α)) {t t' : Tree α} (h : t.toList = t'.toList) :
    (fill p t).toList = (fill p t').toList := by
  rw [toList_fill, toList_fill, h]

theorem depth_fill (p : List (Frame α)) (t : Tree α) : p.length + t.depth ≤ (fill p t).depth := by
  induction p generalizing t with
  | nil => simp
  | cons f p ih =>
    have hf : t.depth + 1 ≤ (f.fill t).depth := by
      cases f <;> simp only [Frame.fill, Tree.depth] <;> omega
    have := ih (f.fill t)
    simp only [List.length_cons, fill_cons]
    omega

/-! ## 2. Balance -/

/-- `Balanced t c n`: the root of `t` is `c`, every path down from it passes `n` black
    nodes, and no red node has a red child. -/
inductive Balanced : Tree α → Colour → Nat → Prop where
  | nil : Balanced .nil .black 0
  | red {l r : Tree α} {v : α} {n : Nat} :
      Balanced l .black n → Balanced r .black n → Balanced (.node l .red v r) .red n
  | black {l r : Tree α} {v : α} {n : Nat} {c₁ c₂ : Colour} :
      Balanced l c₁ n → Balanced r c₂ n → Balanced (.node l .black v r) .black (n + 1)

/-- `Path_balanced p c n`: a tree `Balanced _ c n` fits the hole of `p`. A red node's
    children are black, a black node adds one to the black height, and the root is black. -/
inductive Path_balanced : List (Frame α) → Colour → Nat → Prop where
  | root (n : Nat) : Path_balanced [] .black n
  | red_left {p : List (Frame α)} {v : α} {r : Tree α} {n : Nat} :
      Balanced r .black n → Path_balanced p .red n →
        Path_balanced (.left .red v r :: p) .black n
  | red_right {p : List (Frame α)} {v : α} {l : Tree α} {n : Nat} :
      Balanced l .black n → Path_balanced p .red n →
        Path_balanced (.right l .red v :: p) .black n
  | black_left {p : List (Frame α)} {v : α} {r : Tree α} {n : Nat} {c c' : Colour} :
      Balanced r c' n → Path_balanced p .black (n + 1) →
        Path_balanced (.left .black v r :: p) c n
  | black_right {p : List (Frame α)} {v : α} {l : Tree α} {n : Nat} {c c' : Colour} :
      Balanced l c' n → Path_balanced p .black (n + 1) →
        Path_balanced (.right l .black v :: p) c n

namespace Balanced

theorem colour_eq {t : Tree α} {c : Colour} {n : Nat} : Balanced t c n → t.colour = c
  | .nil | .red _ _ | .black _ _ => rfl

/-- A black-rooted tree of black height 0 is empty. -/
theorem eq_nil_of_black_zero {t : Tree α} (h : Balanced t .black 0) : t = .nil := by
  cases h
  rfl

/-- Painting a black-rooted tree black changes nothing. -/
theorem paint_black_eq {t : Tree α} {n : Nat} (h : Balanced t .black n) : t.paint .black = t := by
  cases h <;> rfl

/-- A tree of positive black height is a node. -/
theorem ne_nil_of_pos {t : Tree α} {c : Colour} {n : Nat} (h : Balanced t c n) (hn : 0 < n) : t ≠ .nil := by
  rintro rfl
  cases h
  exact absurd hn (Nat.lt_irrefl 0)

/-- Balance does not look at the values: a node keeps it under another value. -/
theorem replace_value {l r : Tree α} {c c' : Colour} {v v' : α} {n : Nat}
    (h : Balanced (.node l c v r) c' n) : Balanced (.node l c v' r) c' n := by
  cases h with
  | red hl hr => exact .red hl hr
  | black hl hr => exact .black hl hr

/-- A red node over two black-rooted trees of height `n`, painted black, has height `n + 1`. -/
theorem paint_black {t : Tree α} {n : Nat} (h : Balanced t .red n) : Balanced (t.paint .black) .black (n + 1) := by
  cases h with
  | red hl hr => exact .black hl hr

/-- The depth bound: at most two nodes a black one, one more for a red root. -/
theorem depth_le {t : Tree α} {c : Colour} {n : Nat} : Balanced t c n → t.depth ≤ 2 * n + (if c = .red then 1 else 0)
  | .nil => Nat.le_refl _
  | .red hl hr => by
    have h₁ := hl.depth_le
    have h₂ := hr.depth_le
    simp only [reduceCtorEq, if_false] at h₁ h₂
    simp only [Tree.depth, if_pos]
    omega
  | .black hl hr => by
    have h₁ := hl.depth_le
    have h₂ := hr.depth_le
    simp only [Tree.depth, reduceCtorEq, if_false] at *
    split at h₁ <;> split at h₂ <;> omega

/-- The size bound: a tree of black height `n` has at least `2 ^ n - 1` nodes. -/
theorem two_pow_le {t : Tree α} {c : Colour} {n : Nat} : Balanced t c n → 2 ^ n ≤ t.size + 1
  | .nil => Nat.le_refl _
  | .red hl hr => by
    have := hl.two_pow_le
    simp only [Tree.size]
    omega
  | .black hl hr => by
    have h₁ := hl.two_pow_le
    have h₂ := hr.two_pow_le
    simp only [Tree.size, Nat.pow_succ]
    omega

end Balanced

/-- A black-rooted balanced tree of fewer than `2 ^ (k + 1) - 1` nodes is at most `2 k`
    deep: its black height is at most `k`. -/
theorem depth_le_of_size_lt {t : Tree α} {n k : Nat} (h : Balanced t .black n)
    (hk : t.size + 1 < 2 ^ (k + 1)) : t.depth ≤ 2 * k := by
  have hn : n ≤ k := by
    have h₁ : 2 ^ n < 2 ^ (k + 1) := by
      have := h.two_pow_le
      omega
    have := (Nat.pow_lt_pow_iff_right (by decide : 1 < 2)).mp h₁
    omega
  have := h.depth_le
  simp only [reduceCtorEq, if_false] at this
  omega

namespace Path_balanced

/-- **Filling a balanced path** with a tree it takes gives a balanced tree, black at the root. -/
theorem fill {p : List (Frame α)} {c : Colour} {n : Nat} {t : Tree α} : Path_balanced p c n → Balanced t c n →
    ∃ m, Balanced (RedBlack.fill p t) .black m
  | .root _, ht => ⟨_, ht⟩
  | .red_left hr hp, ht => hp.fill (.red ht hr)
  | .red_right hl hp, ht => hp.fill (.red hl ht)
  | .black_left hr hp, ht => hp.fill (.black ht hr)
  | .black_right hl hp, ht => hp.fill (.black hl ht)

/-- What a path's first frame can be (the inversion of `Path_balanced` at a frame): a red
    node, then with a black sibling in a place that takes red, or a black node, whose place
    takes black at one more. -/
theorem of_cons {f : Frame α} {q : List (Frame α)} {c : Colour} {n : Nat}
    (h : Path_balanced (f :: q) c n) :
    (f.colour = .red ∧ c = .black ∧ Balanced f.other .black n ∧ Path_balanced q .red n) ∨
      (f.colour = .black ∧ (∃ c', Balanced f.other c' n) ∧ Path_balanced q .black (n + 1)) := by
  cases h with
  | red_left hr hq => exact .inl ⟨rfl, rfl, hr, hq⟩
  | red_right hl hq => exact .inl ⟨rfl, rfl, hl, hq⟩
  | black_left hr hq => exact .inr ⟨rfl, ⟨_, hr⟩, hq⟩
  | black_right hl hq => exact .inr ⟨rfl, ⟨_, hl⟩, hq⟩

/-- A frame of a black node takes a tree of either colour. -/
theorem cons_black {f : Frame α} {q : List (Frame α)} {c c' : Colour} {n : Nat}
    (hf : f.colour = .black) (ho : Balanced f.other c' n) (hq : Path_balanced q .black (n + 1)) :
    Path_balanced (f :: q) c n := by
  cases f with
  | left fc v r =>
    cases hf
    exact .black_left ho hq
  | right l fc v =>
    cases hf
    exact .black_right ho hq

/-- A hole that takes a red tree takes a black one: its parent is black. -/
theorem black_of_red {p : List (Frame α)} {n : Nat} : Path_balanced p .red n → Path_balanced p .black n
  | .black_left hr hp => .black_left hr hp
  | .black_right hl hp => .black_right hl hp

/-- A hole under a red node takes only black trees, so a red hole's parent is black. -/
theorem colour_of_red {f : Frame α} {q : List (Frame α)} {n : Nat} (h : Path_balanced (f :: q) .red n) :
    f.colour = .black := by
  cases h <;> rfl

/-- The root takes only black trees. -/
theorem ne_nil_of_red {p : List (Frame α)} {n : Nat} (h : Path_balanced p .red n) : p ≠ [] := by
  rintro rfl
  cases h

end Path_balanced

/-- One step down to the left child of a node that fits the hole. -/
theorem Balanced.descend_left {p : List (Frame α)} {l r : Tree α} {c : Colour} {v : α} {n : Nat}
    (hp : Path_balanced p c n) (ht : Balanced (.node l c v r) c n) :
    ∃ c' n', Balanced l c' n' ∧ Path_balanced (.left c v r :: p) c' n' := by
  cases ht with
  | red hl hr => exact ⟨_, _, hl, .red_left hr hp⟩
  | black hl hr => exact ⟨_, _, hl, .black_left hr hp⟩

/-- One step down to the right child of a node that fits the hole. -/
theorem Balanced.descend_right {p : List (Frame α)} {l r : Tree α} {c : Colour} {v : α} {n : Nat}
    (hp : Path_balanced p c n) (ht : Balanced (.node l c v r) c n) :
    ∃ c' n', Balanced r c' n' ∧ Path_balanced (.right l c v :: p) c' n' := by
  cases ht with
  | red hl hr => exact ⟨_, _, hr, .red_right hl hp⟩
  | black hl hr => exact ⟨_, _, hr, .black_right hl hp⟩

/-- A frame's node painted black, over a subtree and a sibling of one black height. -/
theorem Frame.balanced_fill_black {f : Frame α} {t : Tree α} {c c' : Colour} {n : Nat}
    (ho : Balanced f.other c' n) (ht : Balanced t c n) :
    Balanced ((f.fill t).paint .black) .black (n + 1) := by
  cases f with
  | left fc v r => exact .black ht ho
  | right l fc v => exact .black ho ht

/-- **Balance along a path**: in a balanced tree with a black root, every subtree is
    balanced and the path down to it takes it. -/
theorem Balanced.unfill {p : List (Frame α)} {t : Tree α} {N : Nat}
    (h : Balanced (fill p t) .black N) : ∃ c n, Balanced t c n ∧ Path_balanced p c n := by
  induction p generalizing t with
  | nil => exact ⟨_, _, h, .root N⟩
  | cons f p ih =>
    obtain ⟨c, n, hf, hp⟩ := ih h
    -- the frame's node has the colour its balance says
    have hc : f.colour = c := by
      have := hf.colour_eq
      cases f <;> exact this
    cases f with
    | left fc v r =>
      subst hc
      exact hf.descend_left hp
    | right l fc v =>
      subst hc
      exact hf.descend_right hp

end RedBlack
