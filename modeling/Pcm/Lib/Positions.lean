import Mathlib.Data.List.TakeWhile
import Mathlib.Tactic.ByContra
import Pcm.Lib.StdString

/-!
# Positions as parts of a string

What the members of `std::string` that work with positions do, said with the parts of the string before and
after the place that they find.
-/

namespace Pcm.StdString

variable {s a b d : Bytes} {c : UInt8} {pos count : Nat}

/-! ## Search -/

theorem findIdx_append_cons (absent : c ∉ a) (b : Bytes) :
    (a ++ c :: b).findIdx? (fun x => decide (x = c)) = some a.length := by
  induction a with
  | nil => simp [List.findIdx?_cons]
  | cons x a ih =>
      have other : x ≠ c := fun same => absent (same ▸ List.mem_cons_self)
      have later : c ∉ a := fun member => absent (List.mem_cons_of_mem x member)
      rw [List.cons_append, List.findIdx?_cons, ih later]
      simp [other]

theorem findIdx_absent (absent : c ∉ s) : s.findIdx? (fun x => decide (x = c)) = none := by
  rw [List.findIdx?_eq_none_iff]
  intro x member
  exact decide_eq_false (fun same => absent (same ▸ member))

/-- The first place after a front part. -/
theorem find_after (front : Bytes) (absent : c ∉ a) (b : Bytes) :
    find (front ++ (a ++ c :: b)) c front.length = front.length + a.length := by
  rw [find, List.drop_left, findIdx_append_cons absent]

theorem find_first (absent : c ∉ a) (b : Bytes) : find (a ++ c :: b) c 0 = a.length := by
  rw [find, List.drop_zero, findIdx_append_cons absent]
  exact Nat.zero_add _

theorem find_absent_after (front : Bytes) (absent : c ∉ s) : find (front ++ s) c front.length = npos := by
  rw [find, List.drop_left, findIdx_absent absent]

theorem find_absent (absent : c ∉ s) : find s c 0 = npos := by
  rw [find, List.drop_zero, findIdx_absent absent]

/-- The last place that is not after the position. -/
theorem rfind_last (taken : s.take (pos + 1) = a ++ c :: b) (absent : c ∉ b) : rfind s c pos = a.length := by
  have reversed : (a ++ c :: b).reverse = b.reverse ++ c :: a.reverse := by simp
  have notIn : c ∉ b.reverse := by rwa [List.mem_reverse]
  rw [rfind, taken, reversed, findIdx_append_cons notIn]
  simp only [List.length_append, List.length_cons, List.length_reverse]
  omega

theorem rfind_absent (absent : c ∉ s.take (pos + 1)) : rfind s c pos = npos := by
  have notIn : c ∉ (s.take (pos + 1)).reverse := by rwa [List.mem_reverse]
  rw [rfind, findIdx_absent notIn]

/-- A string is split at the last place of a character. -/
theorem exists_last (member : c ∈ s) : ∃ a b, s = a ++ c :: b ∧ c ∉ b := by
  obtain ⟨b, a, split, absent⟩ := List.eq_append_cons_of_mem (List.mem_reverse.mpr member)
  refine ⟨a.reverse, b.reverse, ?_, by rwa [List.mem_reverse]⟩
  rw [← List.reverse_reverse s, split]
  simp

/-- There is one such split. -/
theorem last_unique {a' b' : Bytes} (same : a ++ c :: b = a' ++ c :: b') (absent : c ∉ b) (absent' : c ∉ b') :
    a = a' ∧ b = b' := by
  have taken : ∀ {x y : Bytes}, c ∉ y → (x ++ c :: y).reverse.takeWhile (fun d => decide (d ≠ c)) = y.reverse := by
    intro x y notIn
    rw [List.reverse_append, List.reverse_cons, List.append_assoc, List.takeWhile_append_of_pos]
    · simp
    · intro d member
      exact decide_eq_true (by rintro rfl; exact notIn (List.mem_reverse.mp member))
  have reversed : b.reverse = b'.reverse := by
    rw [← taken (x := a) absent, ← taken (x := a') absent', same]
  obtain rfl := List.reverse_injective reversed
  exact ⟨List.append_cancel_right same, rfl⟩

/-- Two characters are found where they stand. -/
theorem findPair_here (c1 c2 : UInt8) (front rest : Bytes) :
    findPair (front ++ c1 :: c2 :: rest) c1 c2 front.length = front.length := by
  have tail : (front ++ c1 :: c2 :: rest).drop (front.length + 1) = c2 :: rest := by
    rw [← List.drop_drop, List.drop_left]
    rfl
  rw [findPair, List.drop_left, tail, List.zip_cons_cons, List.findIdx?_cons]
  simp

/-- The pair that is found right at the position stands there. -/
theorem pair_of_findPair {c1 c2 : UInt8} (small : pos < npos) (found : findPair s c1 c2 pos = pos) :
    ∃ rest, s.drop pos = c1 :: c2 :: rest := by
  have next : s.drop (pos + 1) = (s.drop pos).drop 1 := by rw [List.drop_drop]
  rw [findPair, next] at found
  match tail : s.drop pos with
  | [] =>
      rw [tail] at found
      change npos = pos at found
      omega
  | [x] =>
      rw [tail] at found
      change npos = pos at found
      omega
  | x :: y :: rest =>
      rw [tail, List.drop_succ_cons, List.drop_zero, List.zip_cons_cons, List.findIdx?_cons] at found
      by_cases same : (x, y) = (c1, c2)
      · obtain ⟨rfl, rfl⟩ := Prod.mk.inj same
        exact ⟨rest, rfl⟩
      · simp only [same, decide_false, Bool.false_eq_true, if_false] at found
        cases later : ((y :: rest).zip rest).findIdx? (fun x => decide (x = (c1, c2))) with
        | none =>
            rw [later] at found
            change npos = pos at found
            omega
        | some i =>
            rw [later] at found
            change pos + (i + 1) = pos at found
            omega

/-! ## Parts -/

theorem substr_front : substr (a ++ b) 0 a.length = .ok a := by
  simp [substr]

theorem substr_part (front : Bytes) : substr (front ++ (a ++ b)) front.length a.length = .ok a := by
  rw [substr, if_neg (by simp), List.drop_left, List.take_left]

/-- A count that reaches beyond the end. -/
theorem substr_rest (front : Bytes) (long : a.length ≤ count) :
    substr (front ++ a) front.length count = .ok a := by
  rw [substr, if_neg (by simp), List.drop_left, List.take_of_length_le long]

/-! ## Differences -/

theorem minus_of_le {m n : Nat} (le : n ≤ m) (small : m < 2 ^ 64) : minus m n = m - n := by
  have shift : m + 2 ^ 64 - n = m - n + 2 ^ 64 := by omega
  rw [minus, shift, Nat.add_mod_right, Nat.mod_eq_of_lt (by omega)]

/-- A difference that wraps around is large. -/
theorem le_minus_of_lt {m n k : Nat} (lt : m < n) (fits : n + k ≤ 2 ^ 64) : k ≤ minus m n := by
  rw [minus, Nat.mod_eq_of_lt (by omega)]
  omega

end Pcm.StdString
