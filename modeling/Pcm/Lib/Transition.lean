import Mathlib.Algebra.BigOperators.Group.Finset.Basic
import Mathlib.Logic.Relation
import Mathlib.Tactic.Abel

/-!
# Transition systems

Reachability under a step relation, with the rule for invariants and the rule for runs that have to
come to an end, and the way in which a sum over the components of a state changes when one component
does.
-/

namespace Pcm.Transition

variable {σ : Type*}

/-- The states that a run from `start` can come to. -/
def Reachable (step : σ → σ → Prop) (start s : σ) : Prop := Relation.ReflTransGen step start s

variable {step : σ → σ → Prop} {start s t : σ}

theorem Reachable.next (reached : Reachable step start s) (next : step s t) :
    Reachable step start t :=
  reached.tail next

theorem Reachable.trans (reached : Reachable step start s) (further : Reachable step s t) :
    Reachable step start t :=
  Relation.ReflTransGen.trans reached further

theorem Reachable.iterate {f : σ → σ} (each : ∀ s, step s (f s)) (n : Nat)
    (reached : Reachable step start s) : Reachable step start (f^[n] s) := by
  induction n generalizing s with
  | zero => exact reached
  | succ n ih => exact ih (reached.next (each s))

/-- What holds at the start and is kept by every step holds in every reachable state. -/
theorem Reachable.invariant {P : σ → Prop} (first : P start) (kept : ∀ {s t}, P s → step s t → P t)
    (reached : Reachable step start s) : P s := by
  induction reached with
  | refl => exact first
  | tail _ next ih => exact kept ih next

/-- A run cannot go on for ever without coming to a state of `goal` if every step from any other
state makes `size` smaller. -/
theorem eventually {goal : σ → Prop} (size : σ → Nat)
    (smaller : ∀ {s t}, ¬ goal s → step s t → size t < size s) (run : Nat → σ)
    (steps : ∀ i, step (run i) (run (i + 1))) : ∃ i, goal (run i) := by
  by_contra never
  push Not at never
  have bound : ∀ i, size (run i) + i ≤ size (run 0) := by
    intro i
    induction i with
    | zero => simp
    | succ i ih =>
        have := smaller (never i) (steps i)
        omega
  have := bound (size (run 0) + 1)
  omega

/-! ## Sums over the components of a state -/

section Sums

variable {ι β M : Type*} [Fintype ι] [DecidableEq ι] {component : ι → β} {i : ι} {now : β}

/-- The contribution of a component is exchanged when it is updated. -/
theorem sum_update [AddCommMonoid M] (value : β → M) (here : component i = now) (next : β) :
    (∑ j, value (Function.update component i next j)) + value now =
      (∑ j, value (component j)) + value next := by
  have others : ∑ j ∈ Finset.univ.erase i, value (Function.update component i next j) =
      ∑ j ∈ Finset.univ.erase i, value (component j) := by
    apply Finset.sum_congr rfl
    intro j member
    rw [Function.update_of_ne (Finset.ne_of_mem_erase member)]
  have after := Finset.add_sum_erase Finset.univ
    (fun j => value (Function.update component i next j)) (Finset.mem_univ i)
  have before := Finset.add_sum_erase Finset.univ (fun j => value (component j)) (Finset.mem_univ i)
  simp only [Function.update_self] at after
  rw [← after, ← before, others, here]
  abel

theorem sum_update_gain [AddCommMonoid M] (value : β → M) (here : component i = now) (next : β)
    (nothing : value now = 0) :
    ∑ j, value (Function.update component i next j) = (∑ j, value (component j)) + value next := by
  rw [← sum_update value here next, nothing, add_zero]

theorem sum_update_lose [AddCommMonoid M] (value : β → M) (here : component i = now) (next : β)
    (nothing : value next = 0) :
    (∑ j, value (Function.update component i next j)) + value now = ∑ j, value (component j) := by
  rw [sum_update value here next, nothing, add_zero]

theorem sum_update_same [AddCancelCommMonoid M] (value : β → M) (here : component i = now) (next : β)
    (same : value now = value next) :
    ∑ j, value (Function.update component i next j) = ∑ j, value (component j) := by
  have moved := sum_update value here next
  rw [same] at moved
  exact add_right_cancel moved

end Sums

end Pcm.Transition
