import Mathlib.Algebra.BigOperators.Group.List.Basic

/-!
# Accumulators

A loop that adds something to each field of a record, seen through one field: the field grows by
the sum of what the passes add. Some passes overwrite the field instead, and then everything
added before is lost. The last part splits a sum over a list by a key.
-/

namespace Pcm.Accumulate

variable {σ α β M : Type*}

section Monoid

variable [AddCommMonoid M]

/-- A loop that adds `val a` to what `observe` sees. -/
theorem observe_foldl (observe : σ → M) (step : σ → α → σ) (val : α → M) (l : List α)
    (adds : ∀ s, ∀ a ∈ l, observe (step s a) = observe s + val a) (s : σ) :
    observe (l.foldl step s) = observe s + (l.map val).sum := by
  induction l generalizing s with
  | nil => simp
  | cons a l ih =>
      rw [List.foldl_cons, ih (fun s b mem => adds s b (List.mem_cons_of_mem _ mem)),
        adds s a (by simp), List.map_cons, List.sum_cons, add_assoc]

/-- A loop that leaves what `observe` sees alone. -/
theorem observe_foldl_const {γ : Type*} (observe : σ → γ) (step : σ → α → σ) (l : List α)
    (keeps : ∀ s, ∀ a ∈ l, observe (step s a) = observe s) (s : σ) :
    observe (l.foldl step s) = observe s := by
  induction l generalizing s with
  | nil => rfl
  | cons a l ih =>
      rw [List.foldl_cons, ih (fun s b mem => keeps s b (List.mem_cons_of_mem _ mem)),
        keeps s a (by simp)]

/-- A step that adds to what `observe` sees, whatever was there; the amount is what it adds to
`s₀`. -/
def Additive (observe : σ → M) (s₀ : σ) (step : σ → σ) : Prop :=
  ∀ s, observe (step s) = observe s + observe (step s₀)

theorem Additive.comp {observe : σ → M} {s₀ : σ} {g h : σ → σ} (hg : Additive observe s₀ g)
    (hh : Additive observe s₀ h) : Additive observe s₀ (fun s => g (h s)) := by
  intro s
  rw [hg (h s), hh s, hg (h s₀), add_assoc]

theorem sum_range_single {n k : Nat} (h : k < n) (x : M) :
    ((List.range n).map fun i => if k = i then x else 0).sum = x := by
  induction n with
  | zero => omega
  | succ n ih =>
      rw [List.range_succ, List.map_append, List.sum_append]
      rcases Nat.lt_or_ge k n with below | above
      · rw [ih below]
        simp [show k ≠ n by omega]
      · have vanish : ((List.range n).map fun i => if k = i then x else 0) =
            (List.range n).map fun _ => (0 : M) := by
          apply List.map_congr_left
          intro i mem
          rw [if_neg (by rw [List.mem_range] at mem; omega)]
        rw [vanish, List.sum_map_zero]
        simp [show k = n by omega]

/-- A sum over a list, split by a key below `n`. -/
theorem sum_by_key {n : Nat} (l : List α) (key : α → Nat) (f : α → M)
    (below : ∀ a ∈ l, key a < n) :
    ((List.range n).map fun i => ((l.filter fun a => key a == i).map f).sum).sum =
      (l.map f).sum := by
  induction l with
  | nil => simp
  | cons a l ih =>
      have tail := ih (fun b mem => below b (List.mem_cons_of_mem _ mem))
      have head := sum_range_single (below a (by simp)) (f a)
      rw [List.map_cons, List.sum_cons, ← tail, ← head, ← List.sum_map_add]
      congr 1
      apply List.map_congr_left
      intro i _
      rcases eq_or_ne (key a) i with same | other
      · simp [same]
      · simp [other]

end Monoid

/-- What one pass does to a field. -/
inductive Update (M : Type*)
  | add (v : M)
  | assign (v : M)
  deriving DecidableEq

namespace Update

variable [AddCommGroup M]

def val : Update M → M
  | add v => v
  | assign v => v

def apply (acc : M) : Update M → M
  | add v => acc + v
  | assign v => v

def isAssign : Update M → Bool
  | add _ => false
  | assign _ => true

/-- The values that a later assignment of the same run throws away. -/
def overwritten : List (Update M) → M
  | [] => 0
  | u :: l => if l.any isAssign then u.val + overwritten l else 0

theorem apply_zero (u : Update M) : u.apply 0 = u.val := by
  cases u <;> simp [apply, val]

theorem overwritten_of_adds {l : List (Update M)} (adds : l.any isAssign = false) :
    overwritten l = 0 := by
  cases l with
  | nil => rfl
  | cons u l =>
      have tail : l.any isAssign = false := by
        rw [List.any_cons, Bool.or_eq_false_iff] at adds
        exact adds.2
      rw [overwritten, tail]
      rfl

/-- A run of updates keeps the sum of the values less those overwritten. -/
theorem foldl_apply (l : List (Update M)) (acc : M) :
    l.foldl apply acc =
      (if l.any isAssign then 0 else acc) + (l.map val).sum - overwritten l := by
  induction l generalizing acc with
  | nil => simp [overwritten]
  | cons u l ih =>
      rw [List.foldl_cons, ih]
      cases u with
      | add v =>
          cases h : l.any isAssign
          · simp [h, overwritten, overwritten_of_adds h, isAssign, val, apply, add_assoc]
          · simp [h, overwritten, isAssign, val]
      | assign v =>
          cases h : l.any isAssign
          · simp [h, overwritten, overwritten_of_adds h, isAssign, val, apply]
          · simp [h, overwritten, isAssign, val]

/-- Updating from zero gives the sum exactly when nothing that counts was overwritten. -/
theorem foldl_apply_zero_eq_sum_iff (l : List (Update M)) :
    l.foldl apply 0 = (l.map val).sum ↔ overwritten l = 0 := by
  rw [foldl_apply, ite_self, zero_add, sub_eq_self]

/-- Assignments of one marker among additions of nothing leave the marker. -/
theorem foldl_apply_eq_marker {l : List (Update M)} {marker : M}
    (marks : ∀ u ∈ l, u.isAssign = true → u.val = marker)
    (idle : ∀ u ∈ l, u.isAssign = false → u.val = 0) (some : l.any isAssign = true) (acc : M) :
    l.foldl apply acc = marker := by
  induction l generalizing acc with
  | nil => simp at some
  | cons u l ih =>
      have later := ih (fun v mem => marks v (List.mem_cons_of_mem _ mem))
        (fun v mem => idle v (List.mem_cons_of_mem _ mem))
      rw [List.foldl_cons]
      cases h : l.any isAssign with
      | true => exact later h _
      | false =>
          have own : u.isAssign = true := by simpa [h] using some
          have nothing : (l.map val).sum = 0 := by
            apply List.sum_eq_zero
            intro x mem
            obtain ⟨v, inner, rfl⟩ := List.mem_map.mp mem
            exact idle v (List.mem_cons_of_mem _ inner) (by simpa using List.any_eq_false.mp h v inner)
          have value := marks u (by simp) own
          cases u with
          | add v => simp [isAssign] at own
          | assign v =>
              rw [foldl_apply, h, overwritten_of_adds h, nothing]
              simpa [apply, val] using value

/-- In every order of the passes the field ends with the sum, or with the marker if there is one
to assign, exactly when no pass assigns or no pass adds anything. -/
theorem foldl_every_order_iff {α : Type*} (upd : α → Update M) (l : List α) {marker : M}
    (marks : ∀ a ∈ l, (upd a).isAssign = true → (upd a).val = marker) :
    (∀ order : List α, order.Perm l → (order.map upd).foldl apply 0 =
      if (l.map upd).any isAssign then marker else ((l.map upd).map val).sum) ↔
    (∀ a ∈ l, (upd a).isAssign = false) ∨ ∀ a ∈ l, (upd a).isAssign = false → (upd a).val = 0 := by
  constructor
  · intro same
    by_cases adds : ∀ a ∈ l, (upd a).isAssign = false
    · exact .inl adds
    -- an assignment that comes second last, before the addition
    · right
      intro a mem add
      push Not at adds
      obtain ⟨c, other, assigns⟩ := adds
      rw [ne_eq, Bool.not_eq_false] at assigns
      obtain ⟨s, t, rfl⟩ := List.append_of_mem mem
      have rest : c ∈ s ++ t := by
        rw [List.mem_append, List.mem_cons] at other
        rcases other with front | rfl | back
        · exact List.mem_append_left _ front
        · rw [assigns] at add
          cases add
        · exact List.mem_append_right _ back
      obtain ⟨p, q, split⟩ := List.append_of_mem rest
      have perm : (p ++ q ++ [c, a]).Perm (s ++ a :: t) :=
        calc (p ++ q ++ [c, a]).Perm ([c, a] ++ (p ++ q)) := List.perm_append_comm
          _ = c :: a :: (p ++ q) := rfl
          _ |>.Perm (a :: c :: (p ++ q)) := List.Perm.swap _ _ _
          _ |>.Perm (a :: (p ++ c :: q)) := List.Perm.cons _ List.perm_middle.symm
          _ = a :: (s ++ t) := by rw [split]
          _ |>.Perm (s ++ a :: t) := List.perm_middle.symm
      have some : ((s ++ a :: t).map upd).any isAssign = true := by
        rw [List.any_map, List.any_eq_true]
        exact ⟨c, other, assigns⟩
      have last := same _ perm
      rw [if_pos some, List.map_append, List.foldl_append] at last
      have value := marks c other assigns
      cases hc : upd c with
      | add v => simp [hc, isAssign] at assigns
      | assign v =>
          cases ha : upd a with
          | assign w => simp [ha, isAssign] at add
          | add w =>
              rw [hc] at value
              simpa [hc, ha, apply, val, show v = marker from value] using last
  · rintro safe order perm
    have members : ∀ a, a ∈ order ↔ a ∈ l := fun a => perm.mem_iff
    have any : (order.map upd).any isAssign = (l.map upd).any isAssign := by
      rw [List.any_map, List.any_map]
      exact perm.any_eq
    cases h : (l.map upd).any isAssign with
    | false =>
        rw [h] at any
        rw [foldl_apply, any, overwritten_of_adds any]
        simpa using ((perm.map upd).map val).sum_eq
    | true =>
        rw [h] at any
        rw [if_pos rfl]
        apply foldl_apply_eq_marker _ _ any
        · intro u mem assigns
          obtain ⟨a, inner, rfl⟩ := List.mem_map.mp mem
          exact marks a ((members a).mp inner) assigns
        · intro u mem add
          obtain ⟨a, inner, rfl⟩ := List.mem_map.mp mem
          rcases safe with adds | idle
          · rw [List.any_map, List.any_eq_true] at h
            obtain ⟨c, other, assigns⟩ := h
            rw [Function.comp_apply, adds c other] at assigns
            cases assigns
          · exact idle a ((members a).mp inner) add

end Update

/-- A loop each of whose passes updates what `observe` sees. -/
theorem observe_foldl_update [AddCommGroup M] (observe : σ → M) (step : σ → α → σ)
    (upd : α → Update M) (l : List α)
    (updates : ∀ s, ∀ a ∈ l, observe (step s a) = (upd a).apply (observe s)) (s : σ) :
    observe (l.foldl step s) = (l.map upd).foldl Update.apply (observe s) := by
  induction l generalizing s with
  | nil => rfl
  | cons a l ih =>
      rw [List.foldl_cons, ih (fun s b mem => updates s b (List.mem_cons_of_mem _ mem)),
        updates s a (by simp), List.map_cons, List.foldl_cons]

section Modify

variable {κ : Type*} [DecidableEq κ]

/-- Update one entry of an array. -/
def modify (states : κ → σ) (k : κ) (f : σ → σ) : κ → σ :=
  fun i => if i = k then f (states i) else states i

theorem modify_self (states : κ → σ) (k : κ) (f : σ → σ) :
    modify states k f k = f (states k) := if_pos rfl

theorem modify_of_ne {k l : κ} (other : l ≠ k) (states : κ → σ) (f : σ → σ) :
    modify states k f l = states l := if_neg other

theorem modify_eq_self (states : κ → σ) (k : κ) : modify states k (fun s => s) = states := by
  funext i
  simp [modify]

/-- Two updates of one entry are one update. -/
theorem modify_modify (states : κ → σ) (k : κ) (f g : σ → σ) :
    modify (modify states k f) k g = modify states k fun s => g (f s) := by
  funext i
  by_cases same : i = k <;> simp [modify, same]

/-- Updates that commute in the entry they share commute. -/
theorem modify_comm (states : κ → σ) (k l : κ) {f g : σ → σ}
    (swap : k = l → ∀ s, f (g s) = g (f s)) :
    modify (modify states l g) k f = modify (modify states k f) l g := by
  by_cases same : k = l
  · subst same
    rw [modify_modify, modify_modify]
    exact congrArg _ (funext fun s => swap rfl s)
  · funext i
    by_cases first : i = k
    · subst first
      simp [modify, same]
    · by_cases second : i = l
      · subst second
        simp [modify, first]
      · simp [modify, first, second]

/-- A loop that updates each of some entries once. -/
theorem foldl_modify_nodup [DecidableEq α] {key : α → κ} (injective : Function.Injective key)
    (f : α → σ → σ) {l : List α} (nodup : l.Nodup) (states : κ → σ) (a : α) :
    l.foldl (fun states a => modify states (key a) (f a)) states (key a) =
      if a ∈ l then f a (states (key a)) else states (key a) := by
  induction l generalizing states with
  | nil => simp
  | cons b l ih =>
      obtain ⟨fresh, nodup⟩ := List.nodup_cons.mp nodup
      rw [List.foldl_cons, ih nodup]
      by_cases same : a = b
      · subst same
        simp [fresh, modify_self]
      · have other : key a ≠ key b := fun eq => same (injective eq)
        simp [same, modify_of_ne other]

/-- A loop that updates one entry per pass, seen at one entry: only the passes with its key
count. -/
theorem foldl_modify (key : α → κ) (f : α → σ → σ) (l : List α) (states : κ → σ) (k : κ) :
    l.foldl (fun states a => modify states (key a) (f a)) states k =
      (l.filter fun a => key a == k).foldl (fun s a => f a s) (states k) := by
  induction l generalizing states with
  | nil => rfl
  | cons a l ih =>
      rw [List.foldl_cons, ih]
      by_cases same : key a = k
      · simp [same, modify]
      · simp [same, modify, Ne.symm same]

/-- One pass for each key below `n`. -/
theorem foldl_modify_range {n k : Nat} (h : k < n) (f : Nat → σ → σ) (states : Nat → σ) :
    (List.range n).foldl (fun states i => modify states i (f i)) states k = f k (states k) := by
  rw [foldl_modify (fun i => i)]
  have single : ((List.range n).filter fun i => i == k) = [k] := by
    induction n with
    | zero => omega
    | succ n ih =>
        rw [List.range_succ, List.filter_append]
        by_cases last : k = n
        · subst last
          have none : ((List.range k).filter fun i => i == k) = [] := by
            rw [List.filter_eq_nil_iff]
            intro i mem
            rw [List.mem_range] at mem
            simp
            omega
          rw [none]
          simp
        · rw [ih (by omega)]
          simp [Ne.symm last]
  rw [single]
  rfl

end Modify

end Pcm.Accumulate
