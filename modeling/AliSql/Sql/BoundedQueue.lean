import Mathlib
import AliSql.Mysys.Queues

/-!
# `sql/bounded_queue.h`: the best N keys

`Bounded_queue` keeps the best `max_elements` of the keys pushed into it, for a sort with a
`LIMIT`. It is a `QUEUE` of `max_elements + 1` pointers to keys, with the worst key on top:
the greatest when `max_at_top` (the smallest keys are kept), the least otherwise. `push`
inserts while the queue is not full; once it is, the keymaker writes the new key over the
top's and `queue_replaced` sifts it down, so the key dropped is the old top, not the worse of
the old top and the new key. `pop` first drops the top of a full queue, the one key beyond
`max_elements`, and then removes and returns the top.

Keys are values: the keymaker's write into the top's key buffer is a write of the new key at
position 1. This is what the buffers do while each one is held by one position of the
queue, which pushes that all come before the pops keep (`pop` is, as its comment says, for
draining the queue). The keymaker itself is a function from elements to keys.

What is proved (`bounded_queue_keeps_best`): on a compare function that is a total preorder,
pushing `k` elements into a queue of `N` and popping while `num_elements() > 0` returns
`min N k` keys, the best of those pushed, each once, from the worst to the best, and the key
of the extra slot is among those never returned. The invariant of the pushes
(`Bounded_queue.Pushed`) is that the held and the dropped keys are the keys pushed, and that
at most one held key orders strictly before a dropped one.
-/

set_option autoImplicit false

namespace AliSql

variable {K E : Type}

/-- `UINT_MAX`. -/
def UINT_MAX : Nat := 2 ^ 32 - 1

/-- The part of `Bounded_queue` that `push` and `pop` use: the queue of keys. -/
structure Bounded_queue (K : Type) where
  m_queue : QUEUE K

/-- `Bounded_queue::init`, with `none` for the error return 1, the given compare function,
    and the array `root` that `init_queue` allocates. -/
def Bounded_queue.init (max_elements : Nat) (max_at_top : Bool) (compare : K → K → Int)
    (root : Nat → K) : Option (Bounded_queue K) :=
  if max_elements ≥ UINT_MAX - 1 then none
  else some ⟨init_queue (max_elements + 1) max_at_top compare root⟩

/-- `Bounded_queue::push(element)`. -/
def Bounded_queue.push (q : Bounded_queue K) (keymaker : E → K) (element : E) : Bounded_queue K :=
  if queue_is_full q.m_queue then
    -- the keymaker writes the new key over the top's, and the queue is re-ordered
    ⟨queue_replaced { q.m_queue with root := Function.update q.m_queue.root 1 (keymaker element) }⟩
  else ⟨queue_insert q.m_queue (keymaker element)⟩

/-- `Bounded_queue::pop()`: `none` is the `NULL` return. -/
def Bounded_queue.pop (q : Bounded_queue K) : Bounded_queue K × Option K :=
  -- the extra element of a full queue is not returned to the client code
  let queue := if queue_is_full q.m_queue then (queue_remove q.m_queue 0).1 else q.m_queue
  if queue.elements = 0 then (⟨queue⟩, none)
  else (⟨(queue_remove queue 0).1⟩, some (queue_remove queue 0).2)

/-- `Bounded_queue::num_elements()`. -/
def Bounded_queue.num_elements (q : Bounded_queue K) : Nat := q.m_queue.elements

/-- The pushes of the callers, one element after the other (`insert_test_data`). -/
def Bounded_queue.push_all (q : Bounded_queue K) (keymaker : E → K) (elements : List E) :
    Bounded_queue K :=
  elements.foldl (fun q element => q.push keymaker element) q

/-- The loop of the callers, `pop()` while `num_elements() > 0`, for at most `fuel` rounds. -/
def Bounded_queue.pop_all : Nat → Bounded_queue K → List K
  | 0, _ => []
  | fuel + 1, q =>
    if q.num_elements > 0 then
      match q.pop with
      | (q', some key) => key :: Bounded_queue.pop_all fuel q'
      | (_, none) => []
    else []

/-- Keeping the three least of 3, 1, 4, 1, 5, 9, 2, 6, popped from the greatest. -/
example : ((Bounded_queue.mk (init_queue 4 true (fun a b : Nat => (a : Int) - b) fun _ => 0)).push_all
    id [3, 1, 4, 1, 5, 9, 2, 6]).pop_all 4 = [2, 1, 1] := by decide +kernel

/-! ## Pops -/

/-- `pop()` on a queue that is not full removes and returns its top. -/
theorem Bounded_queue.pop_of_not_full {q : Bounded_queue K} (hfull : queue_is_full q.m_queue = false)
    (hpos : 0 < q.m_queue.elements) :
    q.pop = (⟨(queue_remove q.m_queue 0).1⟩, some (queue_top q.m_queue)) := by
  simp only [Bounded_queue.pop, hfull, Bool.false_eq_true, if_false, Nat.pos_iff_ne_zero.mp hpos]
  rfl

/-- On a full queue, `pop()` is the `pop()` of the queue without its top. -/
theorem Bounded_queue.pop_of_full {q : Bounded_queue K} (hfull : queue_is_full q.m_queue = true)
    (hpos : 0 < q.m_queue.elements) :
    q.pop = (Bounded_queue.mk (queue_remove q.m_queue 0).1).pop := by
  have hn : q.m_queue.elements = q.m_queue.max_elements := by simpa [queue_is_full] using hfull
  have hnot : queue_is_full (queue_remove q.m_queue 0).1 = false := by
    simp only [queue_is_full, beq_eq_false_iff_ne]
    show q.m_queue.elements - 1 ≠ q.m_queue.max_elements
    omega
  simp only [Bounded_queue.pop, hfull, hnot, if_true, Bool.false_eq_true, if_false]

section keep_best

variable [DecidableEq K] {compare : K → K → Int} [Total_preorder compare] {o : Int}

/-- Popping a queue that is not full, reached by queue operations, returns what it holds,
    each pop at or before the later ones. The induction is on the rounds left, with the
    queue one pointer shorter each round. -/
theorem Bounded_queue.pop_all_spec :
    ∀ (fuel : Nat) (q : Bounded_queue K) (held : List K), Reachable q.m_queue held →
      q.m_queue.compare = compare → q.m_queue.max_at_top = o →
      q.m_queue.elements < q.m_queue.max_elements → q.m_queue.elements ≤ fuel →
      (q.pop_all fuel).Perm held ∧ (q.pop_all fuel).Pairwise (heap_le compare o)
  | 0, q, held, hreach, hcmp, _, _, hfuel => by
    have hc : Total_preorder q.m_queue.compare := hcmp ▸ inferInstance
    have hnil : held = [] := List.eq_nil_of_length_eq_zero (by rw [hreach.length_held hc]; omega)
    subst hnil
    exact ⟨List.Perm.refl _, List.Pairwise.nil⟩
  | fuel + 1, q, held, hreach, hcmp, hmax, hlt, hfuel => by
    have hc : Total_preorder q.m_queue.compare := hcmp ▸ inferInstance
    by_cases hpos : 0 < q.m_queue.elements
    · -- one pop: the top comes out, the rest is popped from the shorter queue
      have hfull : queue_is_full q.m_queue = false := by
        simp only [queue_is_full, beq_eq_false_iff_ne]
        omega
      obtain ⟨htop, hle⟩ := hreach.top_mem_le hc hpos
      obtain ⟨hperm, hsorted⟩ := Bounded_queue.pop_all_spec fuel
        ⟨(queue_remove q.m_queue 0).1⟩ _ (hreach.remove_top hpos) hcmp hmax
        (show q.m_queue.elements - 1 < q.m_queue.max_elements by omega)
        (show q.m_queue.elements - 1 ≤ fuel by omega)
      have hpop : q.pop_all (fuel + 1) = queue_top q.m_queue ::
          (Bounded_queue.mk (queue_remove q.m_queue 0).1).pop_all fuel := by
        simp only [Bounded_queue.pop_all, Bounded_queue.num_elements, hpos, if_true,
          Bounded_queue.pop_of_not_full hfull hpos]
      rw [hpop]
      refine ⟨(hperm.cons _).trans (List.perm_cons_erase htop).symm, List.pairwise_cons.mpr ⟨?_, hsorted⟩⟩
      intro b hb
      rw [← hcmp, ← hmax]
      exact hle b (List.mem_of_mem_erase (hperm.subset hb))
    · -- nothing left to pop
      have hnil : held = [] := List.eq_nil_of_length_eq_zero (by rw [hreach.length_held hc]; omega)
      subst hnil
      have hpop : q.pop_all (fuel + 1) = [] := by
        simp only [Bounded_queue.pop_all, Bounded_queue.num_elements, hpos, if_false]
      rw [hpop]
      exact ⟨List.Perm.refl _, List.Pairwise.nil⟩

/-- Taking out a key that orders at or before all the others leaves keys that order at or
    after `d`, when at most one of them ordered strictly before `d`. -/
theorem after_of_erase_top {le : K → K → Prop} [DecidableRel le] [IsTrans K le] {held : List K}
    {top d : K} (hbest : (held.countP fun a => ¬ le d a) ≤ 1) (htop : top ∈ held)
    (hle : ∀ a ∈ held, le top a) : ∀ b ∈ held.erase top, le d b := by
  intro b hb
  by_cases hdt : le d top
  · exact IsTrans.trans d top b hdt (hle b (List.mem_of_mem_erase hb))
  · -- the top is the one key before `d`: none is left
    have hzero : (held.erase top).countP (fun a => ¬ le d a) = 0 := by
      rw [List.countP_erase, if_pos ⟨htop, by simpa using hdt⟩]
      omega
    exact not_not.mp (by simpa using List.countP_eq_zero.mp hzero b hb)

/-- Moving the top from the held keys to the dropped ones keeps the keys pushed, with `l`
    pushed after them. -/
theorem perm_erase_append_drop {held D keys : List K} {top : K} (htop : top ∈ held)
    (h : (held ++ D).Perm keys) (l : List K) :
    (held.erase top ++ l ++ (D ++ [top])).Perm (keys ++ l) := by
  have hsplit := (List.perm_cons_erase htop).append_right D |>.symm.trans h
  refine List.perm_iff_count.mpr fun y => ?_
  have hcount := List.perm_iff_count.mp hsplit y
  simp only [List.count_append, List.count_cons, List.count_nil] at hcount ⊢
  omega

/-- What pushing `keys` into a queue of `N + 1` slots leaves: the queue holds `held`, which
    with the dropped keys `D` are the keys pushed; keys are dropped only from a full queue;
    and at most one held key orders strictly before each dropped one. -/
structure Bounded_queue.Pushed (N : Nat) (compare : K → K → Int) (o : Int) (q : Bounded_queue K)
    (held keys D : List K) : Prop where
  reach : Reachable q.m_queue held
  compare_eq : q.m_queue.compare = compare
  max_at_top_eq : q.m_queue.max_at_top = o
  perm : (held ++ D).Perm keys
  max_elements : q.m_queue.max_elements = N + 1
  elements : q.m_queue.elements = min keys.length (N + 1)
  full : D ≠ [] → q.m_queue.elements = N + 1
  best : ∀ d ∈ D, (held.countP fun a => ¬ heap_le compare o d a) ≤ 1

/-- The queue `init` returns, before any push. -/
theorem Bounded_queue.Pushed.init (N : Nat) (max_at_top : Bool) (compare : K → K → Int)
    (root : Nat → K) :
    (Bounded_queue.mk (init_queue (N + 1) max_at_top compare root)).Pushed N compare
      (if max_at_top then -1 else 1) [] [] [] where
  reach := Reachable.init _ _ _ _
  compare_eq := rfl
  max_at_top_eq := rfl
  perm := List.Perm.refl _
  max_elements := rfl
  elements := rfl
  full h := absurd rfl h
  best _ h := absurd h List.not_mem_nil

/-- One push keeps the invariant: into a full queue the new key takes the top's place and
    the top is dropped; otherwise it is inserted. -/
theorem Bounded_queue.Pushed.push {N : Nat} {q : Bounded_queue K} {held keys D : List K}
    (h : q.Pushed N compare o held keys D) (keymaker : E → K) (element : E) :
    ∃ held' D', (q.push keymaker element).Pushed N compare o held' (keys ++ [keymaker element]) D' := by
  have hc : Total_preorder q.m_queue.compare := h.compare_eq ▸ inferInstance
  unfold Bounded_queue.push
  split_ifs with hfull
  · -- full: the top is dropped
    have hn : q.m_queue.elements = N + 1 := by
      simpa [queue_is_full, h.max_elements] using hfull
    obtain ⟨htop, hle⟩ := h.reach.top_mem_le hc (by omega)
    rw [h.compare_eq, h.max_at_top_eq] at hle
    -- every key left orders at or after every dropped one
    have hafter : ∀ d ∈ D ++ [queue_top q.m_queue], ∀ b ∈ held.erase (queue_top q.m_queue),
        heap_le compare o d b := by
      intro d hd
      rcases List.mem_append.mp hd with hd | hd
      · exact after_of_erase_top (h.best d hd) htop hle
      · rw [List.mem_singleton.mp hd]
        exact fun b hb => hle b (List.mem_of_mem_erase hb)
    refine ⟨held.erase (queue_top q.m_queue) ++ [keymaker element], D ++ [queue_top q.m_queue],
      h.reach.replace_top _ (by omega), h.compare_eq, h.max_at_top_eq, ?_, h.max_elements, ?_,
      fun _ => hn, ?_⟩
    · exact perm_erase_append_drop htop h.perm [keymaker element]
    · have := h.elements
      simp only [List.length_append, List.length_singleton]
      show q.m_queue.elements = _
      omega
    · intro d hd
      rw [List.countP_append, List.countP_eq_zero.mpr fun b hb => by simpa using hafter d hd b hb]
      simp only [List.countP_singleton]
      split <;> omega
  · -- not full: the key is inserted, and nothing was dropped yet
    have hlt : q.m_queue.elements < N + 1 := by
      have := h.elements
      have : q.m_queue.elements ≠ N + 1 := by simpa [queue_is_full, h.max_elements] using hfull
      omega
    have hD : D = [] := by
      by_contra hne
      exact absurd (h.full hne) (by omega)
    subst hD
    refine ⟨held ++ [keymaker element], [], h.reach.insert _ (by rw [h.max_elements]; exact hlt),
      h.compare_eq, h.max_at_top_eq, ?_, h.max_elements, ?_, fun hne => absurd rfl hne,
      fun _ hd => absurd hd List.not_mem_nil⟩
    · rw [List.append_nil]
      exact (List.append_nil held ▸ h.perm).append_right _
    · have := h.elements
      simp only [List.length_append, List.length_singleton]
      show q.m_queue.elements + 1 = _
      omega

/-- A run of pushes keeps the invariant; the induction is on the elements pushed. -/
theorem Bounded_queue.Pushed.push_all {N : Nat} (keymaker : E → K) :
    ∀ (elements : List E) (q : Bounded_queue K) (held keys D : List K),
      q.Pushed N compare o held keys D →
      ∃ held' D', (q.push_all keymaker elements).Pushed N compare o held'
        (keys ++ elements.map keymaker) D'
  | [], q, held, keys, D, h => ⟨held, D, by simpa [Bounded_queue.push_all] using h⟩
  | element :: elements, q, held, keys, D, h => by
    obtain ⟨held', D', h'⟩ := h.push keymaker element
    obtain ⟨held'', D'', h''⟩ := Bounded_queue.Pushed.push_all keymaker elements _ _ _ _ h'
    refine ⟨held'', D'', ?_⟩
    simpa [Bounded_queue.push_all] using h''

/-- Draining a full queue: the first pop drops the top, the extra key, and the others come
    out from the worst, each at or after every dropped key. -/
theorem Bounded_queue.Pushed.drain_of_full {N fuel : Nat} {q : Bounded_queue K} {held keys D : List K}
    (h : q.Pushed N compare o held keys D) (hN : 1 ≤ N) (hfull : q.m_queue.elements = N + 1)
    (hfuel : q.m_queue.elements ≤ fuel) :
    (q.pop_all fuel).length = N ∧ (q.pop_all fuel ++ (D ++ [queue_top q.m_queue])).Perm keys ∧
      (∀ b ∈ q.pop_all fuel, ∀ d ∈ D ++ [queue_top q.m_queue], heap_le compare o d b) ∧
      (q.pop_all fuel).Pairwise (heap_le compare o) := by
  have hc : Total_preorder q.m_queue.compare := h.compare_eq ▸ inferInstance
  have hpos : 0 < q.m_queue.elements := by omega
  obtain ⟨htop, hle⟩ := h.reach.top_mem_le hc hpos
  rw [h.compare_eq, h.max_at_top_eq] at hle
  have hfull' : queue_is_full q.m_queue = true := by
    simp [queue_is_full, hfull, h.max_elements]
  obtain ⟨fuel', rfl⟩ : ∃ fuel', fuel = fuel' + 1 := ⟨fuel - 1, by omega⟩
  -- the pops are those of the queue without its top
  have hpop : q.pop_all (fuel' + 1) =
      (Bounded_queue.mk (queue_remove q.m_queue 0).1).pop_all (fuel' + 1) := by
    have hpos' : 0 < (queue_remove q.m_queue 0).1.elements := by
      show 0 < q.m_queue.elements - 1
      omega
    simp only [Bounded_queue.pop_all, Bounded_queue.num_elements, hpos, hpos', if_true,
      Bounded_queue.pop_of_full hfull' hpos]
  obtain ⟨hperm, hsorted⟩ := Bounded_queue.pop_all_spec (fuel' + 1) ⟨(queue_remove q.m_queue 0).1⟩ _
    (h.reach.remove_top hpos) h.compare_eq h.max_at_top_eq
    (show q.m_queue.elements - 1 < q.m_queue.max_elements by rw [h.max_elements]; omega)
    (show q.m_queue.elements - 1 ≤ fuel' + 1 by omega)
  have htop_eq : (queue_remove q.m_queue 0).2 = queue_top q.m_queue := rfl
  rw [htop_eq] at hperm
  rw [hpop]
  refine ⟨?_, ?_, ?_, hsorted⟩
  · rw [hperm.length_eq, List.length_erase_of_mem htop, h.reach.length_held hc, hfull]
    rfl
  · have hmove := perm_erase_append_drop htop h.perm []
    rw [List.append_nil, List.append_nil] at hmove
    exact (hperm.append_right _).trans hmove
  · intro b hb d hd
    have hb' := hperm.subset hb
    rcases List.mem_append.mp hd with hd | hd
    · exact after_of_erase_top (h.best d hd) htop hle b hb'
    · rw [List.mem_singleton.mp hd]
      exact hle b (List.mem_of_mem_erase hb')

/-- Draining a queue that never filled: nothing was dropped, and every key pushed comes out,
    from the worst. -/
theorem Bounded_queue.Pushed.drain_of_not_full {N fuel : Nat} {q : Bounded_queue K}
    {held keys D : List K} (h : q.Pushed N compare o held keys D) (hfull : q.m_queue.elements ≠ N + 1)
    (hfuel : q.m_queue.elements ≤ fuel) :
    keys.length ≤ N ∧ (q.pop_all fuel).Perm keys ∧ (q.pop_all fuel).Pairwise (heap_le compare o) := by
  have hD : D = [] := by
    by_contra hne
    exact hfull (h.full hne)
  subst hD
  have := h.elements
  obtain ⟨hperm, hsorted⟩ := Bounded_queue.pop_all_spec fuel q held h.reach h.compare_eq
    h.max_at_top_eq (by rw [h.max_elements]; omega) hfuel
  exact ⟨by omega, hperm.trans (List.append_nil held ▸ h.perm), hsorted⟩

omit [DecidableEq K] in
/-- The order of the queue, for each `max_at_top`. -/
theorem heap_le_max_at_top_iff (max_at_top : Bool) (a b : K) :
    heap_le compare (if max_at_top then -1 else 1) a b ↔
      if max_at_top then compare b a ≤ 0 else compare a b ≤ 0 := by
  cases max_at_top <;> simp [heap_le_iff]

theorem bounded_queue_keeps_best (N : Nat) (hN : 1 ≤ N) (hmax : N < UINT_MAX - 1) (max_at_top : Bool)
    (compare : K → K → Int) [Total_preorder compare] (root : Nat → K) (keymaker : E → K)
    (elements : List E) :
    ∃ q, Bounded_queue.init N max_at_top compare root = some q ∧
      ∀ fuel, (q.push_all keymaker elements).num_elements ≤ fuel →
        ((q.push_all keymaker elements).pop_all fuel).length = min N elements.length ∧
        ∃ rest, ((q.push_all keymaker elements).pop_all fuel ++ rest).Perm (elements.map keymaker) ∧
          (∀ b ∈ (q.push_all keymaker elements).pop_all fuel, ∀ d ∈ rest,
            if max_at_top then compare b d ≤ 0 else compare d b ≤ 0) ∧
          ((q.push_all keymaker elements).pop_all fuel).Pairwise
            (fun a b => if max_at_top then compare b a ≤ 0 else compare a b ≤ 0) ∧
          (N < elements.length → queue_top (q.push_all keymaker elements).m_queue ∈ rest) := by
  refine ⟨_, if_neg (by omega), fun fuel hfuel => ?_⟩
  obtain ⟨held, D, h⟩ := (Bounded_queue.Pushed.init N max_at_top compare root).push_all keymaker
    elements _ _ _ _
  simp only [List.nil_append] at h
  have hbest : ∀ {a b : K}, heap_le compare (if max_at_top then -1 else 1) a b →
      if max_at_top then compare b a ≤ 0 else compare a b ≤ 0 := (heap_le_max_at_top_iff _ _ _).mp
  have helements := h.elements
  simp only [List.length_map] at helements
  by_cases hfull : ((Bounded_queue.mk (init_queue (N + 1) max_at_top compare root)).push_all keymaker
    elements).m_queue.elements = N + 1
  · -- more than `N` pushed: the extra key is dropped with the others
    obtain ⟨hlen, hperm, hafter, hsorted⟩ := h.drain_of_full hN hfull hfuel
    exact ⟨by omega, _, hperm, fun b hb d hd => hbest (hafter b hb d hd), hsorted.imp hbest,
      fun _ => List.mem_append_right _ (List.mem_singleton_self _)⟩
  · obtain ⟨hk, hperm, hsorted⟩ := h.drain_of_not_full hfull hfuel
    simp only [List.length_map] at hk
    exact ⟨by rw [hperm.length_eq, List.length_map]; omega, [], by rwa [List.append_nil],
      fun _ _ _ hd => absurd hd List.not_mem_nil, hsorted.imp hbest, fun hNk => absurd hNk (by omega)⟩

/-- Keeping the three least of five keys. -/
theorem bounded_queue_keeps_best_three_of_five :
    ∃ q, Bounded_queue.init 3 true (fun a b : Nat => (a : Int) - b) (fun _ => 0) = some q ∧
      ((q.push_all (id : Nat → Nat) [3, 1, 4, 1, 5]).pop_all 5).length = 3 := by
  obtain ⟨q, hq, h⟩ := @bounded_queue_keeps_best Nat Nat _ 3 (by decide) (by decide) true
    (fun a b : Nat => (a : Int) - b) ⟨fun a b => by omega, fun a b c => by omega⟩ (fun _ => 0) id
    [3, 1, 4, 1, 5]
  -- the queue `init` returns, with its four slots
  have hq' : q = ⟨init_queue 4 true (fun a b : Nat => (a : Int) - b) fun _ => 0⟩ := by
    have hinit := hq
    rw [Bounded_queue.init, if_neg (by decide)] at hinit
    exact (Option.some.inj hinit).symm
  subst hq'
  exact ⟨_, hq, (h 5 (by decide +kernel)).1⟩

end keep_best

end AliSql
