import Mathlib.Data.List.Induction
import Mathlib.Order.Lattice

/-!
# Ordered maps

`std::map` as the list of its entries in the order of their keys, each key once. `m[key]` adds a default
value where the key is missing, so an assignment through it is an update of the old or of that value.
-/

namespace Pcm.OrderedMap

variable {K V : Type} [LinearOrder K]

/-- `m[key]` is made, if it is missing, and changed. -/
def upsert (key : K) (default : V) (f : V → V) : List (K × V) → List (K × V)
  | [] => [(key, f default)]
  | (k, v) :: rest =>
      if key < k then (key, f default) :: (k, v) :: rest
      else if key = k then (k, f v) :: rest
      else (k, v) :: upsert key default f rest

/-- The entries are in order. -/
def Sorted (m : List (K × V)) : Prop := (m.map Prod.fst).Pairwise (· < ·)

variable {key other : K} {default : V} {f g : V → V} {m : List (K × V)}

theorem upsert_ne_nil : upsert key default f m ≠ [] := by
  cases m with
  | nil => exact List.cons_ne_nil _ _
  | cons entry rest =>
      rw [upsert]
      split
      · exact List.cons_ne_nil _ _
      · split <;> exact List.cons_ne_nil _ _

theorem mem_keys_upsert (member : other ∈ (upsert key default f m).map Prod.fst) :
    other = key ∨ other ∈ m.map Prod.fst := by
  induction m with
  | nil => exact Or.inl (List.mem_singleton.mp member)
  | cons entry rest ih =>
      rw [upsert] at member
      split at member
      · exact List.mem_cons.mp member
      · split at member
        · exact Or.inr member
        · rcases List.mem_cons.mp member with first | later
          · exact Or.inr (first ▸ List.mem_cons_self ..)
          · exact (ih later).imp_right (List.mem_cons_of_mem _)

theorem Sorted.upsert (sorted : Sorted m) : Sorted (OrderedMap.upsert key default f m) := by
  induction m with
  | nil => exact List.pairwise_singleton ..
  | cons entry rest ih =>
      obtain ⟨below, tail⟩ := List.pairwise_cons.mp sorted
      rw [OrderedMap.upsert]
      split
      · rename_i less
        refine List.pairwise_cons.mpr ⟨fun k member => ?_, sorted⟩
        rcases List.mem_cons.mp member with rfl | later
        · exact less
        · exact less.trans (below k later)
      · rename_i notLess
        split
        · exact sorted
        · rename_i different
          refine List.pairwise_cons.mpr ⟨fun k member => ?_, ih tail⟩
          rcases mem_keys_upsert member with rfl | later
          · exact lt_of_le_of_ne (not_lt.mp notLess) (Ne.symm different)
          · exact below k later

theorem lookup_eq_none (absent : key ∉ m.map Prod.fst) : m.lookup key = none := by
  induction m with
  | nil => rfl
  | cons entry rest ih =>
      obtain ⟨different, later⟩ := not_or.mp (mt List.mem_cons.mpr absent)
      rw [List.lookup_cons, beq_eq_false_iff_ne.mpr different]
      exact ih later

/-- Before the first key there is none. -/
theorem lookup_of_lt {k : K} {v : V} (sorted : Sorted ((k, v) :: m)) (less : key < k) :
    ((k, v) :: m).lookup key = none := by
  refine lookup_eq_none (fun member => ?_)
  rcases List.mem_cons.mp member with same | later
  · exact less.ne same
  · exact (less.trans ((List.pairwise_cons.mp sorted).1 key later)).ne rfl

theorem lookup_upsert_self (sorted : Sorted m) :
    (upsert key default f m).lookup key = some (f ((m.lookup key).getD default)) := by
  induction m with
  | nil => rw [upsert, List.lookup_cons, beq_self_eq_true]; rfl
  | cons entry rest ih =>
      obtain ⟨k, v⟩ := entry
      rw [upsert]
      split
      · rename_i less
        rw [lookup_of_lt sorted less, List.lookup_cons, beq_self_eq_true]
        rfl
      · split
        · rename_i same
          rw [List.lookup_cons, List.lookup_cons, same, beq_self_eq_true]
          rfl
        · rename_i different
          rw [List.lookup_cons, List.lookup_cons, beq_eq_false_iff_ne.mpr different]
          exact ih (List.pairwise_cons.mp sorted).2

theorem lookup_upsert_ne (different : other ≠ key) :
    (upsert key default f m).lookup other = m.lookup other := by
  have skip : (other == key) = false := beq_eq_false_iff_ne.mpr different
  induction m with
  | nil => rw [upsert, List.lookup_cons, skip]
  | cons entry rest ih =>
      obtain ⟨k, v⟩ := entry
      rw [upsert]
      split
      · rw [List.lookup_cons, skip]
      · split
        · rename_i same
          subst same
          rw [List.lookup_cons, List.lookup_cons, skip]
        · rw [List.lookup_cons, List.lookup_cons, ih]

/-- The entries before the key stay as they are. -/
theorem upsert_append {before : List (K × V)} (below : ∀ entry ∈ before, entry.1 < key) :
    upsert key default f (before ++ m) = before ++ upsert key default f m := by
  induction before with
  | nil => rfl
  | cons entry before ih =>
      have less := below entry List.mem_cons_self
      rw [List.cons_append, upsert, if_neg less.not_gt, if_neg less.ne', List.cons_append,
        ih (fun other member => below other (List.mem_cons_of_mem entry member))]

/-- A second change of the same value. -/
theorem upsert_upsert : upsert key default g (upsert key default f m) =
    upsert key default (g ∘ f) m := by
  induction m with
  | nil => simp [upsert]
  | cons entry rest ih =>
      obtain ⟨k, v⟩ := entry
      by_cases less : key < k
      · simp [upsert, less]
      · by_cases same : key = k
        · simp [upsert, same]
        · simp [upsert, less, same, ih]

/-- Reading `m[key]` changes nothing where the key is there. -/
theorem upsert_id (present : (m.lookup key).isSome) (sorted : Sorted m) :
    upsert key default id m = m := by
  induction m with
  | nil => cases present
  | cons entry rest ih =>
      obtain ⟨k, v⟩ := entry
      rw [upsert]
      split
      · rename_i less
        rw [lookup_of_lt sorted less] at present
        cases present
      · split
        · rfl
        · rename_i different
          rw [List.lookup_cons, beq_eq_false_iff_ne.mpr different] at present
          rw [ih present (List.pairwise_cons.mp sorted).2]

/-! ## Keys -/

variable {ι : Type} (keyOf : ι → K)

/-- The things with each key, in their order. -/
def group (is : List ι) : List (K × List ι) :=
  is.foldl (fun m i => upsert (keyOf i) [] (fun members => members ++ [i]) m) []

theorem lookup_of_mem {k : K} {v : V} (sorted : Sorted m) (member : (k, v) ∈ m) :
    m.lookup k = some v := by
  induction m with
  | nil => cases member
  | cons entry m ih =>
      obtain ⟨below, tail⟩ := List.pairwise_cons.mp sorted
      rcases List.mem_cons.mp member with rfl | later
      · rw [List.lookup_cons, beq_self_eq_true]
      · have less : entry.1 < k := below k (List.mem_map.mpr ⟨_, later, rfl⟩)
        rw [List.lookup_cons, beq_eq_false_iff_ne.mpr less.ne']
        exact ih tail later

end Pcm.OrderedMap
