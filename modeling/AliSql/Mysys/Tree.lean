import Mathlib
import AliSql.Lib.RedBlack

/-!
# Red-black trees (`mysys/tree.c`)

A `TREE` is a red-black tree of `TREE_ELEMENT`s ordered by `compare` on their keys, each
element counting the `tree_insert` calls for its key. There are no parent pointers:
`tree_insert` and `tree_delete` walk down from the root and push the address of every link
they follow into the fixed array `tree->parents` of `MAX_TREE_HEIGHT` entries, and
`rb_insert` and `rb_delete_fixup` rebalance through that stack, `parent[-1][0]` being the
parent of the node at hand and `parent[-2][0]` its grandparent.

The model keeps the tree as a `RedBlack.Tree` of `Element`s, the sentinel `null_element`
being `nil`, and the stack as the path from the link at hand up to the root
(`RedBlack.Frame`s, the parent first): `*parent` is the hole of the path, `parent[-k][0]`
the node of its `k`-th frame, and the index of `parent` in `tree->parents` is the length of
the path. Writing through a link of the stack is filling the hole. Two node pointers are
compared by their positions, the nodes of a tree being distinct, except where one of them
may be the sentinel (`x == par->left` in `rb_delete_fixup`).

Every function returns `none` where the source leaves the stack or the tree: a write past
`parents[MAX_TREE_HEIGHT - 1]`, a read before `parents[0]`, a dereference of one of the
sentinel's `NULL` links (a rotation at the sentinel, or `w->left` with `w` the sentinel).

`memory_limit` is 0, so the branch that resets a full tree is never taken and `allocated`
is never read; the allocation of an element is taken to succeed.
-/

set_option autoImplicit false

namespace AliSql

open RedBlack (Colour Frame fill)

/-- `MAX_TREE_HEIGHT`: the entries of `tree->parents`. -/
def MAX_TREE_HEIGHT : Nat := 64

/-- `TREE_NO_DUPS`, a bit of `tree->flag`. -/
def TREE_NO_DUPS : Nat := 1

/-- What a `TREE_ELEMENT` holds beside its two links and its colour: `count:31`, and the
    key that `ELEMENT_KEY` finds after it. -/
structure Element (κ : Type) where
  key : κ
  count : Nat
  deriving DecidableEq, Repr

/-- The fields of a `TREE` that `tree_insert` and `tree_delete` read or write; `compare`
    includes its `custom_arg`. -/
structure TREE (κ : Type) where
  root : RedBlack.Tree (Element κ)
  elements_in_tree : Nat
  compare : κ → κ → Int
  with_delete : Bool
  flag : Nat

/-- `init_tree(tree, default_alloc_size, 0, size, compare, with_delete, free_element,
    custom_arg)`: an empty tree, `flag` 0 until the caller sets it. -/
def init_tree {κ : Type} (compare : κ → κ → Int) (with_delete : Bool) : TREE κ :=
  ⟨.nil, 0, compare, with_delete, 0⟩

section rotations

variable {α : Type}

/-- `left_rotate(parent, leaf)` on the subtree `*parent` holds: `y= leaf->right` takes the
    place of `leaf`, which becomes its left child. -/
def left_rotate : RedBlack.Tree α → Option (RedBlack.Tree α)
  | .node a c v (.node b c' w d) => some (.node (.node a c v b) c' w d)
  | _ => none

/-- `right_rotate(parent, leaf)`: `x= leaf->left` takes the place of `leaf`. -/
def right_rotate : RedBlack.Tree α → Option (RedBlack.Tree α)
  | .node (.node a c' w b) c v d => some (.node a c' w (.node b c v d))
  | _ => none

/-- `w->left->colour` and `w->right->colour`; the sentinel's links are `NULL`. -/
def child_colours : RedBlack.Tree α → Option (Colour × Colour)
  | .nil => none
  | .node l _ _ r => some (l.colour, r.colour)

/-- `w->left->colour= c`. -/
def paint_left (c : Colour) : RedBlack.Tree α → RedBlack.Tree α
  | .nil => .nil
  | .node l c' v r => .node (l.paint c) c' v r

/-- `w->right->colour= c`. -/
def paint_right (c : Colour) : RedBlack.Tree α → RedBlack.Tree α
  | .nil => .nil
  | .node l c' v r => .node l c' v (r.paint c)

end rotations

/-! ## 1. Rebalancing -/

section rebalance

variable {α : Type}

/-- `if (leaf == par->right) { left_rotate(parent[-1], par); par= leaf; }`, `par` being the
    node of `f` with `leaf` in the hole: the subtree `par` then heads. -/
def rb_insert.turn_left : Frame α → RedBlack.Tree α → Option (RedBlack.Tree α)
  | .left c v r, leaf => some (.node leaf c v r)
  | .right l c v, leaf => left_rotate (.node l c v leaf)

/-- `if (leaf == par->left) { right_rotate(parent[-1], par); par= leaf; }`. -/
def rb_insert.turn_right : Frame α → RedBlack.Tree α → Option (RedBlack.Tree α)
  | .right l c v, leaf => some (.node l c v leaf)
  | .left c v r, leaf => right_rotate (.node leaf c v r)

/-- The loop of `rb_insert(tree, parent, leaf)`, `leaf` at the hole of the path. -/
def rb_insert.loop : RedBlack.Tree α → List (Frame α) → Option (RedBlack.Tree α)
  -- `leaf == tree->root` ends the loop; then `tree->root->colour= BLACK`
  | leaf, [] => some (leaf.paint .black)
  | leaf, f :: p =>
    -- `par= parent[-1][0]`, the node of `f`
    if f.colour = .red then
      match p with
      -- `parent[-2]` would be before `tree->parents`
      | [] => none
      -- `par == par2->left`, `y= par2->right`
      | .left _ v₂ y :: q =>
        if y.colour = .red then
          -- `par` and `y` black, `leaf= par2` red, `parent-= 2`
          loop (.node ((f.fill leaf).paint .black) .red v₂ (y.paint .black)) q
        else do
          let par ← rb_insert.turn_left f leaf
          -- `par` black, `par2` red, `right_rotate(parent[-2], par2)`, `break`
          let top ← right_rotate (.node (par.paint .black) .red v₂ y)
          some ((fill q top).paint .black)
      -- `par == par2->right`, `y= par2->left`
      | .right y _ v₂ :: q =>
        if y.colour = .red then
          loop (.node (y.paint .black) .red v₂ ((f.fill leaf).paint .black)) q
        else do
          let par ← rb_insert.turn_right f leaf
          let top ← left_rotate (.node y .red v₂ (par.paint .black))
          some ((fill q top).paint .black)
    else some ((fill (f :: p) leaf).paint .black)

/-- `rb_insert(tree, parent, leaf)`: `leaf->colour= RED`, then the loop. -/
def rb_insert (parent : List (Frame α)) (leaf : RedBlack.Tree α) : Option (RedBlack.Tree α) :=
  rb_insert.loop (leaf.paint .red) parent

/-- What one round of the loop of `rb_delete_fixup` leaves: the whole tree when the round
    ends the loop, or the new, black `x` one link up (`x= par; parent--`). -/
inductive Fixup_round (α : Type) where
  | done (t : RedBlack.Tree α)
  | up (x : RedBlack.Tree α)

/-- The branch `x == par->left` of `rb_delete_fixup` once `w= par->right` is black:
    `par` is `node x pc pv w` at the hole of `above`. -/
def rb_delete_fixup.left_rest (x : RedBlack.Tree α) (pc : Colour) (pv : α) (w : RedBlack.Tree α)
    (above : List (Frame α)) : Option (Fixup_round α) := do
  let (lc, rc) ← child_colours w
  if lc = .black ∧ rc = .black then
    -- `w->colour= RED; x= par; parent--`; a red `par` ends the loop with `x->colour= BLACK`
    match pc with
    | .red => some (.done (fill above (.node x .black pv (w.paint .red))))
    | .black => some (.up (.node x .black pv (w.paint .red)))
  else do
    -- `w->right->colour == BLACK`: `w->left->colour= BLACK; w->colour= RED;
    -- right_rotate(&par->right, w); w= par->right`
    let w ← if rc = .black then right_rotate ((paint_left .black w).paint .red) else some w
    -- `w->colour= par->colour; par->colour= BLACK; w->right->colour= BLACK;
    -- left_rotate(parent[-1], par); x= tree->root`, and `x->colour= BLACK`
    let top ← left_rotate (.node x .black pv (paint_right .black (w.paint pc)))
    some (.done ((fill above top).paint .black))

/-- The branch `x == par->left` of `rb_delete_fixup`, `par` being `node x pc pv w` at the
    hole of `p`. -/
def rb_delete_fixup.left_round (x : RedBlack.Tree α) (pc : Colour) (pv : α) (w : RedBlack.Tree α)
    (p : List (Frame α)) : Option (Fixup_round α) :=
  match w with
  | .node wl .red wv wr =>
    -- `w` black, `par` red, `left_rotate(parent[-1], par)`; `parent[0]= &w->left;
    -- *++parent= &par->left; w= par->right`
    if p.length + 2 < MAX_TREE_HEIGHT then
      rb_delete_fixup.left_rest x .red pv wl (.left .black wv wr :: p)
    else none
  | _ => rb_delete_fixup.left_rest x pc pv w p

/-- The branch `x == par->right` once `w= par->left` is black: `par` is `node w pc pv x`. -/
def rb_delete_fixup.right_rest (x : RedBlack.Tree α) (pc : Colour) (pv : α) (w : RedBlack.Tree α)
    (above : List (Frame α)) : Option (Fixup_round α) := do
  let (lc, rc) ← child_colours w
  if rc = .black ∧ lc = .black then
    match pc with
    | .red => some (.done (fill above (.node (w.paint .red) .black pv x)))
    | .black => some (.up (.node (w.paint .red) .black pv x))
  else do
    -- `w->left->colour == BLACK`: `w->right->colour= BLACK; w->colour= RED;
    -- left_rotate(&par->left, w); w= par->left`
    let w ← if lc = .black then left_rotate ((paint_right .black w).paint .red) else some w
    -- `w->colour= par->colour; par->colour= BLACK; w->left->colour= BLACK;
    -- right_rotate(parent[-1], par); x= tree->root`
    let top ← right_rotate (.node (paint_left .black (w.paint pc)) .black pv x)
    some (.done ((fill above top).paint .black))

/-- The branch `x == par->right` of `rb_delete_fixup`, `par` being `node w pc pv x`. -/
def rb_delete_fixup.right_round (x : RedBlack.Tree α) (pc : Colour) (pv : α) (w : RedBlack.Tree α)
    (p : List (Frame α)) : Option (Fixup_round α) :=
  match w with
  | .node wl .red wv wr =>
    -- `right_rotate(parent[-1], par); parent[0]= &w->right; *++parent= &par->right;
    -- w= par->left`
    if p.length + 2 < MAX_TREE_HEIGHT then
      rb_delete_fixup.right_rest x .red pv wr (.right wl .black wv :: p)
    else none
  | _ => rb_delete_fixup.right_rest x pc pv w p

/-- One round of the loop of `rb_delete_fixup`, `par` being the node of `f`: the branch
    `x == par->left` or the other. -/
def rb_delete_fixup.round (x : RedBlack.Tree α) (f : Frame α) (p : List (Frame α)) :
    Option (Fixup_round α) :=
  match f with
  | .left pc pv w => rb_delete_fixup.left_round x pc pv w p
  -- `x == par->left` holds too when `x` and `par->left` are both the sentinel; then
  -- `w= par->right` is `x` and `w->left` is `NULL`
  | .right w pc pv =>
    match x, w with
    | .nil, .nil => none
    | _, _ => rb_delete_fixup.right_round x pc pv w p

/-- `rb_delete_fixup(tree, parent)`, `x= **parent` at the hole of the path. -/
def rb_delete_fixup : RedBlack.Tree α → List (Frame α) → Option (RedBlack.Tree α)
  -- `x == tree->root` ends the loop; then `x->colour= BLACK`
  | x, [] => some (x.paint .black)
  | x, f :: p =>
    if x.colour = .black then
      match rb_delete_fixup.round x f p with
      | none => none
      | some (.done t) => some t
      | some (.up x') => rb_delete_fixup x' p
    else some (fill (f :: p) (x.paint .black))

/-- `test_rb_tree(element)`: the number of black nodes on every path down from `element`,
    or `-1` when a red node has a red child or two paths differ. -/
def test_rb_tree : RedBlack.Tree α → Int
  -- `!element->left`: the sentinel
  | .nil => 0
  | .node l c _ r =>
    if c = .red ∧ (l.colour = .red ∨ r.colour = .red) then -1
    else
      let count_l := test_rb_tree l
      let count_r := test_rb_tree r
      if count_l ≥ 0 ∧ count_r ≥ 0 then
        if count_l = count_r then count_l + (if c = .black then 1 else 0) else -1
      else -1

end rebalance

/-! ## 2. Insertion and deletion -/

section calls

variable {κ : Type}

/-- The descent of `tree_insert` and `tree_delete` from the subtree at the hole of `parent`
    to the element whose key compares equal to `key`, or to the sentinel; each step down
    writes `*++parent`. -/
def search_parents (compare : κ → κ → Int) (key : κ) :
    RedBlack.Tree (Element κ) → List (Frame (Element κ)) →
      Option (RedBlack.Tree (Element κ) × List (Frame (Element κ)))
  | .nil, parent => some (.nil, parent)
  | .node l c e r, parent =>
    let cmp := compare e.key key
    if cmp = 0 then some (.node l c e r, parent)
    else if parent.length + 1 < MAX_TREE_HEIGHT then
      if cmp < 0 then search_parents compare key r (.right l c e :: parent)
      else search_parents compare key l (.left c e r :: parent)
    else none

/-- `element->count++` on the 31-bit field, then `if (! element->count) element->count--`. -/
def count_incr (count : Nat) : Nat :=
  let count := (count + 1) % 2 ^ 31
  if count = 0 then (count + 2 ^ 31 - 1) % 2 ^ 31 else count

/-- `tree_insert(tree, key, key_size, custom_arg)`: the tree after the call and the element
    it returns, `none` for `NULL`. -/
def tree_insert (tree : TREE κ) (key : κ) : Option (TREE κ × Option (Element κ)) := do
  let (element, parent) ← search_parents tree.compare key tree.root []
  match element with
  | .nil =>
    -- `**parent= element`, `count= 1`, `elements_in_tree++`, `rb_insert(tree, parent, element)`
    let root ← rb_insert parent (.node .nil .red ⟨key, 1⟩ .nil)
    some ({ tree with root, elements_in_tree := (tree.elements_in_tree + 1) % 2 ^ 32 },
      some ⟨key, 1⟩)
  | .node l c e r =>
    if tree.flag &&& TREE_NO_DUPS ≠ 0 then some (tree, none)
    else
      let e := { e with count := count_incr e.count }
      some ({ tree with root := fill parent (.node l c e r) }, some e)

/-- The descent of `tree_delete` to the successor `nod` of an element with two children:
    from `nod`, at the hole of the frames `q` below the link of `element->right` (index
    `above` of `tree->parents`), left until `nod->left` is the sentinel. It returns `nod`'s
    element, colour and right subtree, and the frames passed, the last one first. -/
def tree_delete.successor (above : Nat) :
    RedBlack.Tree (Element κ) → List (Frame (Element κ)) →
      Option (Element κ × Colour × RedBlack.Tree (Element κ) × List (Frame (Element κ)))
  | .nil, _ => none
  | .node l c e r, q =>
    match l with
    | .nil => some (e, c, r, q)
    | .node .. =>
      -- `*++parent= &nod->left; nod= nod->left`
      if above + q.length + 1 < MAX_TREE_HEIGHT then
        tree_delete.successor above l (.left c e r :: q)
      else none

/-- `tree_delete(tree, key, key_size, custom_arg)`: the tree after the call and the value
    it returns. -/
def tree_delete (tree : TREE κ) (key : κ) : Option (TREE κ × Int) :=
  if !tree.with_delete then some (tree, 1)
  else do
    let (element, parent) ← search_parents tree.compare key tree.root []
    match element with
    -- not in the tree
    | .nil => some (tree, 1)
    | .node l c _ r =>
      -- the link of `element` takes its only child, or its successor takes its place and
      -- the successor's link its right child: `x` is then `**parent`
      let (x, path, remove_colour) ← match l, r with
        | .nil, _ => some (r, parent, c)
        | _, .nil => some (l, parent, c)
        | _, _ => do
          -- `*++parent= &element->right`
          let (n, nc, nr, q) ← if parent.length + 1 < MAX_TREE_HEIGHT then
              tree_delete.successor (parent.length + 1) r [] else none
          -- `org_parent[0][0]= nod; org_parent[1]= &nod->right`, `nod` takes `element`'s
          -- links and colour
          some (nr, q ++ .right l c n :: parent, nc)
      let root ← if remove_colour = .black then rb_delete_fixup x path else some (fill path x)
      some ({ tree with root, elements_in_tree := (tree.elements_in_tree + 2 ^ 32 - 1) % 2 ^ 32 },
        0)

end calls

/-! ## 3. `rb_insert` repairs the one red-red violation -/

section insert_proof

variable {α : Type}

open RedBlack (Balanced Path_balanced toList_fill_congr)

/-- Where `rb_insert`'s red `leaf`, of black height `n`, may stand: at the root, in a place
    that takes a red tree, or under a red node with a black sibling in a place that takes a
    red tree, which is the one violation the loop repairs. -/
def Ins_place (p : List (Frame α)) (n : Nat) : Prop :=
  p = [] ∨ Path_balanced p .red n ∨
    ∃ f q, p = f :: q ∧ f.colour = .red ∧ Balanced f.other .black n ∧ Path_balanced q .red n

/-- A place that takes a black tree takes the red leaf, with at most that violation. -/
theorem Ins_place.of_black {q : List (Frame α)} {n : Nat} (h : Path_balanced q .black n) :
    Ins_place q n := by
  cases q with
  | nil => exact .inl rfl
  | cons f q =>
    rcases h.of_cons with ⟨hf, -, ho, hq⟩ | ⟨hf, ⟨c', ho⟩, hq⟩
    · exact .inr (.inr ⟨f, q, rfl, hf, ho, hq⟩)
    · exact .inr (.inl (.cons_black hf ho hq))

/-- Under a red parent the place has the violation. -/
theorem Ins_place.of_red {f : Frame α} {q : List (Frame α)} {n : Nat}
    (h : Ins_place (f :: q) n) (hf : f.colour = .red) :
    Balanced f.other .black n ∧ Path_balanced q .red n := by
  rcases h with h | h | ⟨f', q', h, -, ho, hq⟩
  · cases h
  · have := h.colour_of_red
    rw [hf] at this
    cases this
  · cases h
    exact ⟨ho, hq⟩

/-- Under a black parent the place takes a red tree. -/
theorem Ins_place.of_black_parent {f : Frame α} {q : List (Frame α)} {n : Nat}
    (h : Ins_place (f :: q) n) (hf : ¬f.colour = .red) : Path_balanced (f :: q) .red n := by
  rcases h with h | h | ⟨f', q', h, hf', -, -⟩
  · cases h
  · exact h
  · cases h
    exact absurd hf' hf

/-- A place that takes a red tree has a black parent, whose sibling has the hole's height. -/
theorem uncle_of_red {g : Frame α} {q : List (Frame α)} {n : Nat}
    (h : Path_balanced (g :: q) .red n) :
    (∃ c', Balanced g.other c' n) ∧ Path_balanced q .black (n + 1) := by
  rcases h.of_cons with ⟨-, h, -⟩ | ⟨-, ho, hq⟩
  · cases h
  · exact ⟨ho, hq⟩

/-- A balanced tree whose root is not red is black-rooted. -/
theorem balanced_black_of_not_red {t : RedBlack.Tree α} {c : Colour} {n : Nat}
    (h : Balanced t c n) (ht : ¬t.colour = .red) : Balanced t .black n := by
  cases c with
  | red => exact absurd h.colour_eq ht
  | black => exact h

/-- After `leaf == par->right`'s rotation, `par` heads a red node whose right subtree is
    black and whose left one has the same black height. -/
theorem turn_left_spec {f : Frame α} {leaf : RedBlack.Tree α} {n : Nat} (hf : f.colour = .red)
    (ho : Balanced f.other .black n) (hleaf : Balanced leaf .red n) :
    ∃ A pv B c, rb_insert.turn_left f leaf = some (.node A .red pv B) ∧ Balanced A c n ∧
      Balanced B .black n ∧ (RedBlack.Tree.node A .red pv B).toList = (f.fill leaf).toList := by
  cases f with
  | left fc v r =>
    cases hf
    exact ⟨leaf, v, r, .red, rfl, hleaf, ho, rfl⟩
  | right l fc v =>
    cases hf
    cases hleaf with
    | red ha hb => exact ⟨_, _, _, .red, rfl, .red ho ha, hb, by simp [RedBlack.Frame.fill]⟩

/-- After `leaf == par->left`'s rotation, the mirror image. -/
theorem turn_right_spec {f : Frame α} {leaf : RedBlack.Tree α} {n : Nat} (hf : f.colour = .red)
    (ho : Balanced f.other .black n) (hleaf : Balanced leaf .red n) :
    ∃ A pv B c, rb_insert.turn_right f leaf = some (.node A .red pv B) ∧ Balanced A .black n ∧
      Balanced B c n ∧ (RedBlack.Tree.node A .red pv B).toList = (f.fill leaf).toList := by
  cases f with
  | right l fc v =>
    cases hf
    exact ⟨l, v, leaf, .red, rfl, ho, hleaf, rfl⟩
  | left fc v r =>
    cases hf
    cases hleaf with
    | red ha hb => exact ⟨_, _, _, .red, rfl, ha, .red hb ho, by simp [RedBlack.Frame.fill]⟩

/-- **The loop of `rb_insert`**: from a red leaf in its place, the loop ends, with the
    values in the same order and the tree red-black. -/
theorem rb_insert_loop_spec (leaf : RedBlack.Tree α) (p : List (Frame α)) {n : Nat}
    (hleaf : Balanced leaf .red n) (hp : Ins_place p n) :
    ∃ t, rb_insert.loop leaf p = some t ∧ t.toList = (fill p leaf).toList ∧
      ∃ m, Balanced t .black m := by
  fun_induction rb_insert.loop leaf p generalizing n with
  | case1 leaf => exact ⟨_, rfl, by simp, _, hleaf.paint_black⟩
  | case2 leaf f hf => exact absurd rfl (hp.of_red hf).2.ne_nil_of_red
  | case3 leaf f hf c v₂ y q hy ih =>
    -- a red uncle: `par` and `y` black, `par2` red, and the loop goes on two links up
    obtain ⟨ho, hg⟩ := hp.of_red hf
    obtain ⟨⟨c', hy'⟩, hq⟩ := uncle_of_red hg
    simp only [RedBlack.Frame.other_left] at hy'
    have hc' : c' = .red := by rw [← hy'.colour_eq, hy]
    subst hc'
    obtain ⟨t, ht, hl, hb⟩ :=
      ih (.red (RedBlack.Frame.balanced_fill_black ho hleaf) hy'.paint_black) (.of_black hq)
    exact ⟨t, ht, by rw [hl]; exact toList_fill_congr q (by simp), hb⟩
  | case4 leaf f hf c v₂ y q hy =>
    -- a black uncle: at most two rotations, and the loop ends
    obtain ⟨ho, hg⟩ := hp.of_red hf
    obtain ⟨⟨c', hy'⟩, hq⟩ := uncle_of_red hg
    simp only [RedBlack.Frame.other_left] at hy'
    have hyb := balanced_black_of_not_red hy' hy
    obtain ⟨A, pv, B, cA, hturn, hA, hB, hAB⟩ := turn_left_spec hf ho hleaf
    obtain ⟨m, hm⟩ := hq.fill (.black hA (.red hB hyb) : Balanced (.node A .black pv
      (.node B .red v₂ y)) .black (n + 1))
    refine ⟨_, by rw [hturn]; rfl, ?_, m, by rw [hm.paint_black_eq]; exact hm⟩
    simp only [RedBlack.Tree.toList_paint]
    exact toList_fill_congr q (by simp [← hAB])
  | case5 leaf f hf y c v₂ q hy ih =>
    obtain ⟨ho, hg⟩ := hp.of_red hf
    obtain ⟨⟨c', hy'⟩, hq⟩ := uncle_of_red hg
    simp only [RedBlack.Frame.other_right] at hy'
    have hc' : c' = .red := by rw [← hy'.colour_eq, hy]
    subst hc'
    obtain ⟨t, ht, hl, hb⟩ :=
      ih (.red hy'.paint_black (RedBlack.Frame.balanced_fill_black ho hleaf)) (.of_black hq)
    exact ⟨t, ht, by rw [hl]; exact toList_fill_congr q (by simp), hb⟩
  | case6 leaf f hf y c v₂ q hy =>
    obtain ⟨ho, hg⟩ := hp.of_red hf
    obtain ⟨⟨c', hy'⟩, hq⟩ := uncle_of_red hg
    simp only [RedBlack.Frame.other_right] at hy'
    have hyb := balanced_black_of_not_red hy' hy
    obtain ⟨A, pv, B, cB, hturn, hA, hB, hAB⟩ := turn_right_spec hf ho hleaf
    obtain ⟨m, hm⟩ := hq.fill (.black (.red hyb hA) hB : Balanced (.node (.node y .red v₂ A)
      .black pv B) .black (n + 1))
    refine ⟨_, by rw [hturn]; rfl, ?_, m, by rw [hm.paint_black_eq]; exact hm⟩
    simp only [RedBlack.Tree.toList_paint]
    exact toList_fill_congr q (by simp [← hAB])
  | case7 leaf f p hf =>
    -- a black parent: nothing to repair
    obtain ⟨m, hm⟩ := (hp.of_black_parent hf).fill hleaf
    exact ⟨_, rfl, by simp, m, by rw [hm.paint_black_eq]; exact hm⟩

end insert_proof

/-! ## 4. `rb_delete_fixup` gives back the black node a deletion took -/

section fixup_proof

variable {α : Type}

open RedBlack (Balanced Path_balanced toList_fill_congr)

/-- `x` after a black node above it was taken out: a black-rooted tree of black height `n`,
    or a red node over two trees of that height, which painting black makes whole. -/
def Short (x : RedBlack.Tree α) (n : Nat) : Prop :=
  Balanced x .black n ∨
    ∃ a v b ca cb, x = .node a .red v b ∧ Balanced a ca n ∧ Balanced b cb n

theorem Short.of_not_red {x : RedBlack.Tree α} {n : Nat} (h : Short x n)
    (hx : ¬x.colour = .red) : Balanced x .black n := by
  rcases h with h | ⟨a, v, b, ca, cb, rfl, -, -⟩
  · exact h
  · exact absurd rfl hx

/-- `x->colour= BLACK` on a short `x` gives a balanced tree. -/
theorem Short.paint_black {x : RedBlack.Tree α} {n : Nat} (h : Short x n) :
    Balanced (x.paint .black) .black n ∨ Balanced (x.paint .black) .black (n + 1) := by
  rcases h with h | ⟨a, v, b, ca, cb, rfl, ha, hb⟩
  · left
    rw [h.paint_black_eq]
    exact h
  · exact .inr (.black ha hb)

/-- Where `par` stands in `rb_delete_fixup`: a red `par` in a place that takes red, or a
    black one in a place one black node higher. -/
def Par_place (pc : Colour) (above : List (Frame α)) (n : Nat) : Prop :=
  (pc = .red ∧ Path_balanced above .red (n + 1)) ∨
    (pc = .black ∧ Path_balanced above .black (n + 2))

theorem Par_place.of_cons {pc : Colour} {pv : α} {w : RedBlack.Tree α}
    {above : List (Frame α)} {n : Nat} (h : Path_balanced (.left pc pv w :: above) .black (n + 1)) :
    ∃ c', Balanced w c' (n + 1) ∧ Par_place pc above n ∧ (pc = .red → c' = .black) := by
  rcases h.of_cons with ⟨hc, -, hw, ha⟩ | ⟨hc, ⟨c', hw⟩, ha⟩
  · exact ⟨_, hw, .inl ⟨hc, ha⟩, fun _ => rfl⟩
  · exact ⟨_, hw, .inr ⟨hc, ha⟩, fun h => absurd (hc.symm.trans h) (by decide)⟩

theorem Par_place.of_cons_right {pc : Colour} {pv : α} {w : RedBlack.Tree α}
    {above : List (Frame α)} {n : Nat}
    (h : Path_balanced (.right w pc pv :: above) .black (n + 1)) :
    ∃ c', Balanced w c' (n + 1) ∧ Par_place pc above n ∧ (pc = .red → c' = .black) := by
  rcases h.of_cons with ⟨hc, -, hw, ha⟩ | ⟨hc, ⟨c', hw⟩, ha⟩
  · exact ⟨_, hw, .inl ⟨hc, ha⟩, fun _ => rfl⟩
  · exact ⟨_, hw, .inr ⟨hc, ha⟩, fun h => absurd (hc.symm.trans h) (by decide)⟩

/-- A node coloured as `par` over two black trees of height `n + 1` fits `par`'s place. -/
theorem Par_place.fill_node {pc : Colour} {above : List (Frame α)} {n : Nat}
    (h : Par_place pc above n) {L R : RedBlack.Tree α} {v : α}
    (hL : Balanced L .black (n + 1)) (hR : Balanced R .black (n + 1)) :
    ∃ m, Balanced (RedBlack.fill above (.node L pc v R)) .black m := by
  rcases h with ⟨rfl, ha⟩ | ⟨rfl, ha⟩
  · exact ha.fill (.red hL hR)
  · exact ha.fill (.black hL hR)

/-- What a round of the loop can leave, `below` being `par`'s subtree: the whole tree,
    balanced and in the same order, or, under a black `par`, a black `x'` one link up that
    makes up the height the round's `x` lacked. -/
def Round_ok (r : Option (Fixup_round α)) (pc : Colour) (below : RedBlack.Tree α)
    (above : List (Frame α)) (n : Nat) : Prop :=
  (∃ t, r = some (.done t) ∧ t.toList = (fill above below).toList ∧
      ∃ m, Balanced t .black m) ∨
    (∃ x', r = some (.up x') ∧ pc = .black ∧ x'.toList = below.toList ∧
      Balanced x' .black (n + 1) ∧ Path_balanced above .black (n + 2))

/-- **A round with a black `w`**, `x == par->left`: two black nephews send `x` up to `par`
    (or end the loop at a red `par`); otherwise one or two rotations end it. -/
theorem left_rest_spec {x w : RedBlack.Tree α} {pc : Colour} {pv : α} {above : List (Frame α)}
    {n : Nat} (hx : Balanced x .black n) (hw : Balanced w .black (n + 1))
    (hpar : Par_place pc above n) :
    Round_ok (rb_delete_fixup.left_rest x pc pv w above) pc (.node x pc pv w) above n := by
  cases hw with
  | @black wl wr wv _ cl cr hl hr =>
    have hcl := hl.colour_eq
    have hcr := hr.colour_eq
    by_cases hbb : cl = .black ∧ cr = .black
    · -- two black nephews: `w` red, and `x` goes up to `par`
      obtain ⟨rfl, rfl⟩ := hbb
      have hw' : Balanced (RedBlack.Tree.node wl .red wv wr) .red n := .red hl hr
      rcases hpar with ⟨rfl, ha⟩ | ⟨rfl, ha⟩
      · left
        obtain ⟨m, hm⟩ := ha.black_of_red.fill
          (.black hx hw' : Balanced (.node x .black pv (.node wl .red wv wr)) .black (n + 1))
        exact ⟨_, by simp [rb_delete_fixup.left_rest, child_colours, hcl, hcr],
          toList_fill_congr above (by simp), m, hm⟩
      · right
        exact ⟨.node x .black pv (.node wl .red wv wr),
          by simp [rb_delete_fixup.left_rest, child_colours, hcl, hcr], rfl, by simp, .black hx hw', ha⟩
    · left
      by_cases hcr' : cr = .black
      · -- the far nephew black, the near one red: `w` turns right, then `par` left
        subst hcr'
        have hcl' : cl = .red := by
          cases cl
          · rfl
          · exact absurd ⟨rfl, rfl⟩ hbb
        subst hcl'
        cases hl with
        | @red a b lv _ ha hb =>
          obtain ⟨m, hm⟩ := hpar.fill_node (v := lv) (L := .node x .black pv a)
            (R := .node b .black wv wr) (.black hx ha) (.black hb hr)
          refine ⟨(fill above (.node (.node x .black pv a) pc lv (.node b .black wv wr))).paint
            .black, by simp [rb_delete_fixup.left_rest, child_colours, hcr, right_rotate,
            left_rotate, paint_left, paint_right], ?_, m, by rw [hm.paint_black_eq]; exact hm⟩
          simp only [RedBlack.Tree.toList_paint]
          exact toList_fill_congr above (by simp)
      · -- the far nephew red: `par` turns left
        have hcr'' : cr = .red := by
          cases cr
          · rfl
          · exact absurd rfl hcr'
        subst hcr''
        cases hr with
        | @red c d rv _ hc hd =>
          obtain ⟨m, hm⟩ := hpar.fill_node (v := wv) (L := .node x .black pv wl)
            (R := .node c .black rv d) (.black hx hl) (.black hc hd)
          refine ⟨(fill above (.node (.node x .black pv wl) pc wv (.node c .black rv d))).paint
            .black, by simp [rb_delete_fixup.left_rest, child_colours, hcl, right_rotate,
            left_rotate, paint_left, paint_right], ?_, m, by rw [hm.paint_black_eq]; exact hm⟩
          simp only [RedBlack.Tree.toList_paint]
          exact toList_fill_congr above (by simp)

/-- **A round with a black `w`**, `x == par->right`: the mirror image. -/
theorem right_rest_spec {x w : RedBlack.Tree α} {pc : Colour} {pv : α} {above : List (Frame α)}
    {n : Nat} (hx : Balanced x .black n) (hw : Balanced w .black (n + 1))
    (hpar : Par_place pc above n) :
    Round_ok (rb_delete_fixup.right_rest x pc pv w above) pc (.node w pc pv x) above n := by
  cases hw with
  | @black wl wr wv _ cl cr hl hr =>
    have hcl := hl.colour_eq
    have hcr := hr.colour_eq
    by_cases hbb : cr = .black ∧ cl = .black
    · obtain ⟨rfl, rfl⟩ := hbb
      have hw' : Balanced (RedBlack.Tree.node wl .red wv wr) .red n := .red hl hr
      rcases hpar with ⟨rfl, ha⟩ | ⟨rfl, ha⟩
      · left
        obtain ⟨m, hm⟩ := ha.black_of_red.fill
          (.black hw' hx : Balanced (.node (.node wl .red wv wr) .black pv x) .black (n + 1))
        exact ⟨_, by simp [rb_delete_fixup.right_rest, child_colours, hcl, hcr],
          toList_fill_congr above (by simp), m, hm⟩
      · right
        exact ⟨.node (.node wl .red wv wr) .black pv x,
          by simp [rb_delete_fixup.right_rest, child_colours, hcl, hcr], rfl, by simp, .black hw' hx, ha⟩
    · left
      by_cases hcl' : cl = .black
      · -- the far nephew black, the near one red: `w` turns left, then `par` right
        subst hcl'
        have hcr' : cr = .red := by
          cases cr
          · rfl
          · exact absurd ⟨rfl, rfl⟩ hbb
        subst hcr'
        cases hr with
        | @red c d rv _ hc hd =>
          obtain ⟨m, hm⟩ := hpar.fill_node (v := rv) (L := .node wl .black wv c)
            (R := .node d .black pv x) (.black hl hc) (.black hd hx)
          refine ⟨(fill above (.node (.node wl .black wv c) pc rv (.node d .black pv x))).paint
            .black, by simp [rb_delete_fixup.right_rest, child_colours, hcl, right_rotate,
            left_rotate, paint_left, paint_right], ?_, m, by rw [hm.paint_black_eq]; exact hm⟩
          simp only [RedBlack.Tree.toList_paint]
          exact toList_fill_congr above (by simp)
      · -- the far nephew red: `par` turns right
        have hcl'' : cl = .red := by
          cases cl
          · rfl
          · exact absurd rfl hcl'
        subst hcl''
        cases hl with
        | @red a b lv _ ha hb =>
          obtain ⟨m, hm⟩ := hpar.fill_node (v := wv) (L := .node a .black lv b)
            (R := .node wr .black pv x) (.black ha hb) (.black hr hx)
          refine ⟨(fill above (.node (.node a .black lv b) pc wv (.node wr .black pv x))).paint
            .black, by simp [rb_delete_fixup.right_rest, child_colours, hcr, right_rotate,
            left_rotate, paint_left, paint_right], ?_, m, by rw [hm.paint_black_eq]; exact hm⟩
          simp only [RedBlack.Tree.toList_paint]
          exact toList_fill_congr above (by simp)

/-- **One round, `x == par->left`**: a red `w` first turns `par` left, which takes one more
    entry of the stack, and makes `w->left` the new `w`. -/
theorem left_round_spec {x w : RedBlack.Tree α} {pc : Colour} {pv : α} {p : List (Frame α)}
    {n : Nat} (hx : Balanced x .black n) (hp : Path_balanced (.left pc pv w :: p) .black (n + 1))
    (hlen : p.length + 2 < MAX_TREE_HEIGHT) :
    Round_ok (rb_delete_fixup.left_round x pc pv w p) pc (.node x pc pv w) p n := by
  obtain ⟨c', hw, hpar, hred⟩ := Par_place.of_cons hp
  cases c' with
  | red =>
    -- a red `w` is under a black `par`
    have hpc : pc = .black := by
      cases pc
      · exact absurd (hred rfl) (by decide)
      · rfl
    subst hpc
    rcases hpar with ⟨h, -⟩ | ⟨-, ha⟩
    · cases h
    cases hw with
    | @red wl wr wv _ hwl hwr =>
      have hround : rb_delete_fixup.left_round x .black pv (.node wl .red wv wr) p =
          rb_delete_fixup.left_rest x .red pv wl (.left .black wv wr :: p) := by
        simp [rb_delete_fixup.left_round, hlen]
      rw [hround]
      -- the round goes on one frame down, under a red `par`
      have hrest : Round_ok (rb_delete_fixup.left_rest x .red pv wl (.left .black wv wr :: p)) .red
          (.node x .red pv wl) (.left .black wv wr :: p) n :=
        left_rest_spec hx hwl (.inl ⟨rfl, .black_left hwr ha⟩)
      rcases hrest with ⟨t, ht, hl, hb⟩ | ⟨x', -, h, -⟩
      · exact .inl ⟨t, ht, by rw [hl]; exact toList_fill_congr p (by simp), hb⟩
      · cases h
  | black =>
    cases hw with
    | @black wl wr wv _ cl cr hl hr => exact left_rest_spec hx (.black hl hr) hpar

/-- **One round, `x == par->right`**: the mirror image. -/
theorem right_round_spec {x w : RedBlack.Tree α} {pc : Colour} {pv : α} {p : List (Frame α)}
    {n : Nat} (hx : Balanced x .black n) (hp : Path_balanced (.right w pc pv :: p) .black (n + 1))
    (hlen : p.length + 2 < MAX_TREE_HEIGHT) :
    Round_ok (rb_delete_fixup.right_round x pc pv w p) pc (.node w pc pv x) p n := by
  obtain ⟨c', hw, hpar, hred⟩ := Par_place.of_cons_right hp
  cases c' with
  | red =>
    have hpc : pc = .black := by
      cases pc
      · exact absurd (hred rfl) (by decide)
      · rfl
    subst hpc
    rcases hpar with ⟨h, -⟩ | ⟨-, ha⟩
    · cases h
    cases hw with
    | @red wl wr wv _ hwl hwr =>
      have hround : rb_delete_fixup.right_round x .black pv (.node wl .red wv wr) p =
          rb_delete_fixup.right_rest x .red pv wr (.right wl .black wv :: p) := by
        simp [rb_delete_fixup.right_round, hlen]
      rw [hround]
      have hrest : Round_ok (rb_delete_fixup.right_rest x .red pv wr (.right wl .black wv :: p)) .red
          (.node wr .red pv x) (.right wl .black wv :: p) n :=
        right_rest_spec hx hwr (.inl ⟨rfl, .black_right hwl ha⟩)
      rcases hrest with ⟨t, ht, hl, hb⟩ | ⟨x', -, h, -⟩
      · exact .inl ⟨t, ht, by rw [hl]; exact toList_fill_congr p (by simp), hb⟩
      · cases h
  | black =>
    cases hw with
    | @black wl wr wv _ cl cr hl hr => exact right_rest_spec hx (.black hl hr) hpar

/-- Under a node `w`, the sentinel test of the right-hand round does not fire. -/
theorem round_right_node (x : RedBlack.Tree α) (a : RedBlack.Tree α) (c : Colour) (v : α)
    (b : RedBlack.Tree α) (pc : Colour) (pv : α) (p : List (Frame α)) :
    rb_delete_fixup.round x (.right (.node a c v b) pc pv) p =
      rb_delete_fixup.right_round x pc pv (.node a c v b) p := by
  cases x <;> rfl

/-- One round from a black `x` in a place one black node short. Under `par->right` the
    sentinel test cannot mislead: `w` has a positive black height, so it is a node. -/
theorem round_spec {x : RedBlack.Tree α} {f : Frame α} {p : List (Frame α)} {n : Nat}
    (hx : Balanced x .black n) (hp : Path_balanced (f :: p) .black (n + 1))
    (hlen : p.length + 2 < MAX_TREE_HEIGHT) :
    Round_ok (rb_delete_fixup.round x f p) f.colour (f.fill x) p n := by
  cases f with
  | left pc pv w => exact left_round_spec hx hp hlen
  | right w pc pv =>
    obtain ⟨c', hw, -, -⟩ := Par_place.of_cons_right hp
    cases w with
    | nil => exact absurd rfl (hw.ne_nil_of_pos (by omega))
    | node a c v b =>
      rw [round_right_node]
      exact right_round_spec hx hp hlen

/-- **`rb_delete_fixup`**: from a short `x` in a place one black node short, with an entry
    of the stack to spare, the loop ends with the values in the same order and the tree
    red-black. -/
theorem rb_delete_fixup_spec : ∀ (p : List (Frame α)) (x : RedBlack.Tree α) {n : Nat},
    Short x n → Path_balanced p .black (n + 1) → p.length + 1 < MAX_TREE_HEIGHT →
      ∃ t, rb_delete_fixup x p = some t ∧ t.toList = (fill p x).toList ∧
        ∃ m, Balanced t .black m
  | [], x, n, hx, _, _ => by
    refine ⟨_, rfl, by simp, ?_⟩
    rcases hx.paint_black with h | h
    · exact ⟨_, h⟩
    · exact ⟨_, h⟩
  | f :: p, x, n, hx, hp, hlen => by
    by_cases hxc : x.colour = .red
    · -- a red `x` ends the loop and is painted black
      obtain ⟨a, v, b, ca, cb, rfl, ha, hb⟩ : ∃ a v b ca cb, x = .node a .red v b ∧
          Balanced a ca n ∧ Balanced b cb n := by
        rcases hx with h | h
        · exact absurd (h.colour_eq ▸ hxc) (by decide)
        · exact h
      obtain ⟨m, hm⟩ := hp.fill (.black ha hb : Balanced (.node a .black v b) .black (n + 1))
      exact ⟨_, by simp [rb_delete_fixup], toList_fill_congr (f :: p) (by simp), m, hm⟩
    · have hxb := hx.of_not_red hxc
      have hlen' : p.length + 2 < MAX_TREE_HEIGHT := by
        simp only [List.length_cons] at hlen
        omega
      have hloop : rb_delete_fixup x (f :: p) = match rb_delete_fixup.round x f p with
          | none => none
          | some (.done t) => some t
          | some (.up x') => rb_delete_fixup x' p := by
        rw [rb_delete_fixup, if_pos hxb.colour_eq]
      rcases round_spec hxb hp hlen' with ⟨t, ht, htl, hb⟩ | ⟨x', hx', -, hxl, hxb', ha⟩
      · exact ⟨t, by rw [hloop, ht], htl, hb⟩
      · -- `x` goes up one link, where the place lacks one black node of height `n + 2`
        obtain ⟨t, ht, htl, hb⟩ := rb_delete_fixup_spec p x' (.inl hxb') ha (by omega)
        exact ⟨t, by rw [hloop, hx']; exact ht, by rw [htl]; exact toList_fill_congr p hxl, hb⟩

end fixup_proof

end AliSql
