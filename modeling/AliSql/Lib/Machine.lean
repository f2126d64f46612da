import Mathlib

/-!
# Machines that answer requests

A deterministic machine reads a request, answers it and moves on:
`step : I → S → O × S`. `trace step s rs` lists, for each request of `rs` in turn, the
answer and the state after it. Two ways of saying what such a machine does are
developed here, each as one structure of step conditions and one theorem over every
list of requests:

* `Simulation`: an abstraction function sends every state the invariant holds of to a
  state of a second machine, so that each step is one step of the second machine with
  the same observed answer; then along every list of requests the observed answers are
  the second machine's (`Simulation.answers_trace`);
* `Rising`: a bound on what the machine can still answer, never lowered by a step, and
  every answer at least the bound before the step and below the bound after it; then
  the answers strictly increase along every list of requests
  (`Rising.pairwise_trace`).

Both rest on `forall_mem_trace`: what each step guarantees of its own answer and state,
from a state the invariant holds of, holds of every entry of every trace.
-/

set_option autoImplicit false

namespace Machine

variable {I S O : Type _}

/-- The answers of `step` to the requests `rs` from `s`, each with the state after it. -/
def trace (step : I → S → O × S) : S → List I → List (O × S)
  | _, [] => []
  | s, r :: rs => step r s :: trace step (step r s).2 rs

@[simp] theorem trace_nil (step : I → S → O × S) (s : S) : trace step s [] = [] := rfl

@[simp] theorem trace_cons (step : I → S → O × S) (s : S) (r : I) (rs : List I) :
    trace step s (r :: rs) = step r s :: trace step (step r s).2 rs := rfl

/-- The steps keep `inv`. -/
def Preserves (step : I → S → O × S) (inv : S → Prop) : Prop :=
  ∀ r s, inv s → inv (step r s).2

/-- **What every step guarantees holds along every trace.** -/
theorem forall_mem_trace {step : I → S → O × S} {inv : S → Prop} {P : O × S → Prop}
    (hinv : Preserves step inv) (hP : ∀ r s, inv s → P (step r s)) :
    ∀ {s : S} (rs : List I), inv s → ∀ p ∈ trace step s rs, P p
  | _, [], _, p, hp => by simp at hp
  | s, r :: rs, hs, p, hp => by
    rw [trace_cons, List.mem_cons] at hp
    rcases hp with rfl | hp
    · exact hP r s hs
    · exact forall_mem_trace hinv hP rs (hinv r s hs) p hp

/-! ## Simulation -/

section Simulation

variable {A P : Type _}

/-- `abs` sends the machine `step`, on the states `inv` holds of, to the machine `spec`,
    with the answers observed through `obs`. -/
structure Simulation (step : I → S → O × S) (spec : I → A → P × A) (inv : S → Prop)
    (abs : S → A) (obs : O → P) : Prop where
  preserves : Preserves step inv
  answer : ∀ r s, inv s → obs (step r s).1 = (spec r (abs s)).1
  commutes : ∀ r s, inv s → abs (step r s).2 = (spec r (abs s)).2

variable {step : I → S → O × S} {spec : I → A → P × A} {inv : S → Prop} {abs : S → A}
  {obs : O → P}

/-- **Simulated answers.** Along every list of requests from a state the invariant
    holds of, the observed answers are those of the abstract machine from the state's
    abstraction. -/
theorem Simulation.answers_trace (h : Simulation step spec inv abs obs) :
    ∀ {s : S} (rs : List I), inv s →
      (trace step s rs).map (fun p => obs p.1) = (trace spec (abs s) rs).map Prod.fst
  | _, [], _ => rfl
  | s, r :: rs, hs => by
    have ih := h.answers_trace rs (h.preserves r s hs)
    rw [h.commutes r s hs] at ih
    simp only [trace_cons, List.map_cons, h.answer r s hs, ih]

end Simulation

/-! ## Rising answers -/

section Rising

variable {β : Type _} [Preorder β]

/-- The answers `value` picks out lie between `bound` before and after their step, and
    no step lowers `bound`. -/
structure Rising (step : I → S → O × S) (inv : S → Prop) (bound : S → β)
    (value : O → Option β) : Prop where
  preserves : Preserves step inv
  mono : ∀ r s, inv s → bound s ≤ bound (step r s).2
  above : ∀ r s v, inv s → value (step r s).1 = some v → bound s ≤ v ∧ v < bound (step r s).2

variable {step : I → S → O × S} {inv : S → Prop} {bound : S → β} {value : O → Option β}

/-- Every value answered from `s` on is at least `bound s`. -/
theorem Rising.bound_le (h : Rising step inv bound value) :
    ∀ {s : S} (rs : List I), inv s → ∀ v ∈ (trace step s rs).filterMap (fun p => value p.1),
      bound s ≤ v
  | _, [], _, v, hv => by simp at hv
  | s, r :: rs, hs, v, hv => by
    rw [trace_cons, List.filterMap_cons] at hv
    have hrest : ∀ w ∈ (trace step (step r s).2 rs).filterMap (fun p => value p.1),
        bound s ≤ w := fun w hw =>
      le_trans (h.mono r s hs) (h.bound_le rs (h.preserves r s hs) w hw)
    cases hval : value (step r s).1 with
    | none =>
      rw [hval] at hv
      exact hrest v hv
    | some w =>
      rw [hval, List.mem_cons] at hv
      rcases hv with rfl | hv
      · exact (h.above r s v hs hval).1
      · exact hrest v hv

/-- **Strictly increasing answers.** Along every list of requests from a state the
    invariant holds of, the values answered strictly increase. -/
theorem Rising.pairwise_trace (h : Rising step inv bound value) :
    ∀ {s : S} (rs : List I), inv s →
      ((trace step s rs).filterMap (fun p => value p.1)).Pairwise (· < ·)
  | _, [], _ => by simp
  | s, r :: rs, hs => by
    have ih := h.pairwise_trace rs (h.preserves r s hs)
    rw [trace_cons, List.filterMap_cons]
    cases hval : value (step r s).1 with
    | none => exact ih
    | some v =>
      -- The later values are at least the bound after this step, which is above `v`.
      refine List.Pairwise.cons (fun w hw => ?_) ih
      exact lt_of_lt_of_le (h.above r s v hs hval).2 (h.bound_le rs (h.preserves r s hs) w hw)

end Rising

end Machine
