import Mathlib.Algebra.BigOperators.Group.List.Basic
import Mathlib.Data.List.Range
import Mathlib.Logic.Function.Basic

/-!
# Loops with two running indices

A loop over the numbers below `n` that skips some of them and counts the others. Its body sees the
number and the count. A table written at the count is compacted, a table written at the number is
updated in place.
-/

namespace Pcm.Compaction

variable {σ α : Type*} (keep : Nat → Bool)

/-- The numbers below `n` that are not skipped, in order. -/
def kept (n : Nat) : List Nat := (List.range n).filter keep

theorem kept_succ_of_keep {n : Nat} (keeps : keep n = true) : kept keep (n + 1) = kept keep n ++ [n] := by
  simp [kept, List.range_succ, keeps]

theorem kept_succ_of_skip {n : Nat} (skips : ¬ keep n = true) : kept keep (n + 1) = kept keep n := by
  simp [kept, List.range_succ, skips]

@[simp] theorem mem_kept {n i : Nat} : i ∈ kept keep n ↔ i < n ∧ keep i = true := by
  simp [kept]

theorem length_kept_le (n : Nat) : (kept keep n).length ≤ n :=
  (List.length_filter_le _ _).trans_eq List.length_range

variable (body : Nat → Nat → σ → σ)

/-- One pass: the state and the count of the numbers so far. -/
def pass (s : σ × Nat) (i : Nat) : σ × Nat :=
  if keep i then (body s.2 i s.1, s.2 + 1) else s

def walk (n : Nat) (s : σ) : σ × Nat :=
  (List.range n).foldl (pass keep body) (s, 0)

theorem walk_succ (n : Nat) (s : σ) :
    walk keep body (n + 1) s = pass keep body (walk keep body n s) n := by
  simp [walk, List.range_succ]

theorem walk_snd (n : Nat) (s : σ) : (walk keep body n s).2 = (kept keep n).length := by
  induction n with
  | zero => rfl
  | succ n ih =>
      rw [walk_succ, pass]
      by_cases keeps : keep n = true
      · rw [if_pos keeps, kept_succ_of_keep keep keeps, List.length_append, ih]
        rfl
      · rw [if_neg keeps, kept_succ_of_skip keep keeps, ih]

theorem walk_succ_of_keep {n : Nat} (keeps : keep n = true) (s : σ) :
    (walk keep body (n + 1) s).1 = body (kept keep n).length n (walk keep body n s).1 := by
  rw [walk_succ, pass, if_pos keeps, walk_snd]

theorem walk_succ_of_skip {n : Nat} (skips : ¬ keep n = true) (s : σ) :
    (walk keep body (n + 1) s).1 = (walk keep body n s).1 := by
  rw [walk_succ, pass, if_neg skips]

/-- Behind the kept numbers a table written at the count is as before. -/
theorem walk_compacted_behind {table : σ → Nat → α} {write : Nat → α → α}
    (writes : ∀ j i s, table (body j i s) = Function.update (table s) j (write i (table s j)))
    (n : Nat) (s : σ) {k : Nat} (behind : (kept keep n).length ≤ k) :
    table (walk keep body n s).1 k = table s k := by
  induction n with
  | zero => rfl
  | succ n ih =>
      by_cases keeps : keep n = true
      · rw [kept_succ_of_keep keep keeps, List.length_append, List.length_singleton] at behind
        rw [walk_succ_of_keep keep body keeps, writes, Function.update_of_ne (by omega)]
        apply ih
        omega
      · rw [kept_succ_of_skip keep keeps] at behind
        rw [walk_succ_of_skip keep body keeps]
        exact ih behind

/-- A table written at the count holds, one behind the other, what belongs to the kept numbers. -/
theorem walk_compacted {table : σ → Nat → α} {write : Nat → α → α}
    (writes : ∀ j i s, table (body j i s) = Function.update (table s) j (write i (table s j)))
    (n : Nat) (s : σ) {k : Nat} (inside : k < (kept keep n).length) :
    table (walk keep body n s).1 k = write (kept keep n)[k] (table s k) := by
  induction n with
  | zero => simp [kept] at inside
  | succ n ih =>
      by_cases keeps : keep n = true
      · rw [walk_succ_of_keep keep body keeps, writes]
        simp only [kept_succ_of_keep keep keeps] at inside ⊢
        by_cases last : k = (kept keep n).length
        · subst last
          rw [Function.update_self, walk_compacted_behind keep body writes n s (Nat.le_refl _),
            List.getElem_append_right (Nat.le_refl _)]
          simp
        · have earlier : k < (kept keep n).length := by
            rw [List.length_append, List.length_singleton] at inside
            omega
          rw [Function.update_of_ne last, ih earlier, List.getElem_append_left earlier]
      · simp only [kept_succ_of_skip keep keeps] at inside ⊢
        rw [walk_succ_of_skip keep body keeps]
        exact ih inside

/-- A table written at the number itself changes only there. -/
theorem walk_in_place {table : σ → Nat → α} {value : Nat → α}
    (writes : ∀ j i s, table (body j i s) = Function.update (table s) i (value i))
    (n : Nat) (s : σ) (k : Nat) :
    table (walk keep body n s).1 k = if k < n ∧ keep k = true then value k else table s k := by
  induction n with
  | zero => simp [walk]
  | succ n ih =>
      by_cases keeps : keep n = true
      · rw [walk_succ_of_keep keep body keeps, writes]
        by_cases last : k = n
        · subst last
          rw [Function.update_self, if_pos ⟨Nat.lt_succ_self k, keeps⟩]
        · rw [Function.update_of_ne last, ih]
          have same : k < n + 1 ↔ k < n := by omega
          simp only [same]
      · rw [walk_succ_of_skip keep body keeps, ih]
        have same : (k < n + 1 ∧ keep k = true) ↔ (k < n ∧ keep k = true) := by
          constructor
          · rintro ⟨below, keepsK⟩
            have : k ≠ n := fun eq => keeps (eq ▸ keepsK)
            exact ⟨by omega, keepsK⟩
          · rintro ⟨below, keepsK⟩
            exact ⟨by omega, keepsK⟩
        simp only [same]

/-- A running sum adds up over the kept numbers. -/
theorem walk_sum [AddMonoid α] {total : σ → α} {value : Nat → α}
    (adds : ∀ j i s, total (body j i s) = total s + value i) (n : Nat) (s : σ) :
    total (walk keep body n s).1 = total s + ((kept keep n).map value).sum := by
  induction n with
  | zero => simp [walk, kept]
  | succ n ih =>
      by_cases keeps : keep n = true
      · rw [walk_succ_of_keep keep body keeps, adds, ih, kept_succ_of_keep keep keeps, List.map_append,
          List.sum_append, List.map_singleton, List.sum_singleton, add_assoc]
      · rw [walk_succ_of_skip keep body keeps, ih, kept_succ_of_skip keep keeps]

end Pcm.Compaction
