import Mathlib.Algebra.BigOperators.Group.List.Basic
import Mathlib.Algebra.GroupWithZero.Nat
import Mathlib.Algebra.Order.BigOperators.Group.List
import Mathlib.Algebra.Order.Group.Nat

/-!
# Consecutive blocks

Blocks of given sizes, laid one behind the other from 0 on. They tile the numbers below the sum of
the sizes, and a sum over the blocks, cut off at a limit, is a sum over what they tile.
-/

namespace Pcm.Blocks

/-- Where a block begins: behind all the blocks before it. -/
def start (sizes : List Nat) (k : Nat) : Nat := (sizes.take k).sum

theorem start_succ {sizes : List Nat} {k : Nat} (h : k < sizes.length) :
    start sizes (k + 1) = start sizes k + sizes[k] :=
  List.sum_take_succ sizes k h

theorem start_length (sizes : List Nat) : start sizes sizes.length = sizes.sum := by
  rw [start, List.take_length]

theorem start_mono (sizes : List Nat) {j k : Nat} (h : j ≤ k) : start sizes j ≤ start sizes k :=
  List.monotone_sum_take sizes h

/-- Every number below the sum of the sizes is in a block. -/
theorem exists_block {sizes : List Nat} {i : Nat} (h : i < sizes.sum) :
    ∃ k < sizes.length, start sizes k ≤ i ∧ i < start sizes (k + 1) := by
  induction sizes generalizing i with
  | nil => simp at h
  | cons n sizes ih =>
      by_cases inner : i < n
      · exact ⟨0, by simp, by simp [start], by simpa [start] using inner⟩
      · have rest : i - n < sizes.sum := by
          rw [List.sum_cons] at h
          omega
        obtain ⟨k, below, lower, upper⟩ := ih rest
        refine ⟨k + 1, by simpa using below, ?_, ?_⟩
        · simp only [start, List.take_succ_cons, List.sum_cons] at lower ⊢
          omega
        · simp only [start, List.take_succ_cons, List.sum_cons] at upper ⊢
          omega

/-- No number is in two blocks. -/
theorem block_unique {sizes : List Nat} {i j k : Nat} (lowerJ : start sizes j ≤ i)
    (upperJ : i < start sizes (j + 1)) (lowerK : start sizes k ≤ i)
    (upperK : i < start sizes (k + 1)) : j = k := by
  rcases Nat.lt_trichotomy j k with before | same | behind
  · have := start_mono sizes (show j + 1 ≤ k from before)
    omega
  · exact same
  · have := start_mono sizes (show k + 1 ≤ j from behind)
    omega

/-- The numbers from `a` up to `b`, cut off at a limit. -/
def span (a b limit : Nat) : List Nat := List.range' a (min b limit - a)

theorem mem_span {a b limit i : Nat} : i ∈ span a b limit ↔ a ≤ i ∧ i < b ∧ i < limit := by
  rw [span, List.mem_range'_1]
  omega

theorem span_append {a b c : Nat} (left : a ≤ b) (right : b ≤ c) (limit : Nat) :
    span a b limit ++ span b c limit = span a c limit := by
  unfold span
  by_cases inside : b ≤ limit
  · have split := @List.range'_append_1 a (b - a) (min c limit - b)
    rw [show a + (b - a) = b by omega, show b - a + (min c limit - b) = min c limit - a by omega]
      at split
    rw [show min b limit = b by omega, split]
  · rw [show min c limit - b = 0 by omega, show min b limit = min c limit by omega]
    exact List.append_nil _

/-- A limit beyond the end cuts nothing off, and an end beyond the limit does not matter. -/
theorem span_limit {b limit : Nat} (h : limit ≤ b) (a : Nat) : span a b limit = span a limit limit := by
  rw [span, span, show min b limit = min limit limit by omega]

theorem sum_blocks {M : Type*} [AddCommMonoid M] (sizes : List Nat) (limit : Nat) (f : Nat → M)
    (k : Nat) :
    ((List.range k).map fun j =>
      ((span (start sizes j) (start sizes (j + 1)) limit).map f).sum).sum =
      ((span 0 (start sizes k) limit).map f).sum := by
  induction k with
  | zero => simp [span, start]
  | succ k ih =>
      rw [List.range_succ, List.map_append, List.sum_append, ih, List.map_singleton,
        List.sum_singleton, ← List.sum_append, ← List.map_append,
        span_append (Nat.zero_le _) (start_mono sizes (Nat.le_succ k))]

end Pcm.Blocks
