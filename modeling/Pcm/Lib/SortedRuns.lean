import Mathlib.Data.List.Count
import Mathlib.Order.Lattice

/-!
# Runs of a sorted list

A scan of a list counts the elements that are equal to the first of the current run and keeps the
longest run. In a sorted list equal elements stand together, so that the longest run is the largest
number of equal elements.
-/

namespace Pcm.SortedRuns

variable {κ : Type*}

/-- The longest run, after a run of some length and a longest run before it. -/
def longestRun [DecidableEq κ] (first : κ) (current best : Nat) : List κ → Nat
  | [] => max best current
  | x :: l =>
      if x = first then longestRun first (current + 1) best l
      else longestRun x 1 (max best current) l

variable [PartialOrder κ] [DecidableEq κ] [BEq κ] [LawfulBEq κ]

theorem longestRun_le_iff {first : κ} {current best : Nat} {l : List κ}
    (sorted : (first :: l).Pairwise (· ≤ ·)) (n : Nat) : longestRun first current best l ≤ n ↔
      best ≤ n ∧ current + l.count first ≤ n ∧ ∀ x ∈ l, x ≠ first → l.count x ≤ n := by
  induction l generalizing first current best with
  | nil => simp [longestRun]
  | cons x l ih =>
      obtain ⟨least, tail⟩ := List.pairwise_cons.mp sorted
      rw [longestRun]
      by_cases same : x = first
      · subst same
        rw [if_pos rfl, ih tail, List.count_cons_self]
        constructor
        · rintro ⟨before, run, others⟩
          refine ⟨before, by omega, ?_⟩
          intro y mem other
          rw [List.count_cons_of_ne (Ne.symm other)]
          rcases List.mem_cons.mp mem with rfl | mem
          · exact absurd rfl other
          · exact others y mem other
        · rintro ⟨before, run, others⟩
          refine ⟨before, by omega, ?_⟩
          intro y mem other
          have all := others y (List.mem_cons_of_mem _ mem) other
          rwa [List.count_cons_of_ne (Ne.symm other)] at all
      · -- the run of `first` has ended: all that follows is larger
        have gone : first ∉ x :: l := by
          intro mem
          have lower := least x List.mem_cons_self
          rcases List.mem_cons.mp mem with rfl | mem
          · exact same rfl
          · exact same (le_antisymm ((List.pairwise_cons.mp tail).1 first mem) lower)
        rw [if_neg same, ih tail, List.count_eq_zero.mpr gone, Nat.max_le]
        constructor
        · rintro ⟨⟨before, ended⟩, run, others⟩
          refine ⟨before, ended, ?_⟩
          intro y mem _
          by_cases new : y = x
          · rw [new, List.count_cons_self]
            omega
          · rw [List.count_cons_of_ne (Ne.symm new)]
            rcases List.mem_cons.mp mem with here | later
            · exact absurd here new
            · exact others y later new
        · rintro ⟨before, ended, others⟩
          refine ⟨⟨before, ended⟩, ?_, ?_⟩
          · have own := others x List.mem_cons_self same
            rw [List.count_cons_self] at own
            omega
          · intro y mem new
            have kept : y ≠ first := by
              rintro rfl
              exact gone (List.mem_cons_of_mem _ mem)
            have all := others y (List.mem_cons_of_mem _ mem) kept
            rwa [List.count_cons_of_ne (Ne.symm new)] at all

/-- The longest run of a sorted list bounds the numbers of equal elements. -/
theorem count_le_longestRun {first : κ} {l : List κ} (sorted : (first :: l).Pairwise (· ≤ ·))
    {x : κ} (mem : x ∈ first :: l) : (first :: l).count x ≤ longestRun first 0 0 (first :: l) := by
  have bounds := (longestRun_le_iff (List.pairwise_cons.mpr ⟨by
    intro y inner
    rcases List.mem_cons.mp inner with rfl | inner
    · exact le_refl _
    · exact (List.pairwise_cons.mp sorted).1 y inner, sorted⟩) _).mp
    (le_refl (longestRun first 0 0 (first :: l)))
  by_cases same : x = first
  · rw [same]
    omega
  · exact bounds.2.2 x mem same

/-- It is one of them. -/
theorem exists_count_eq_longestRun {first : κ} {l : List κ}
    (sorted : (first :: l).Pairwise (· ≤ ·)) :
    ∃ x ∈ first :: l, (first :: l).count x = longestRun first 0 0 (first :: l) := by
  by_contra none
  push Not at none
  have below : ∀ x ∈ first :: l,
      (first :: l).count x ≤ longestRun first 0 0 (first :: l) - 1 := by
    intro x mem
    have upper := count_le_longestRun sorted mem
    have other := none x mem
    omega
  have start := below first List.mem_cons_self
  have pos := count_le_longestRun sorted (List.mem_cons_self (a := first))
  rw [List.count_cons_self] at start pos
  have shorter : longestRun first 0 0 (first :: l) ≤ longestRun first 0 0 (first :: l) - 1 := by
    refine (longestRun_le_iff (List.pairwise_cons.mpr ⟨?_, sorted⟩) _).mpr
      ⟨Nat.zero_le _, ?_, fun x mem _ => below x mem⟩
    · intro y inner
      rcases List.mem_cons.mp inner with rfl | inner
      · exact le_refl _
      · exact (List.pairwise_cons.mp sorted).1 y inner
    · rw [List.count_cons_self]
      omega
  omega

end Pcm.SortedRuns
